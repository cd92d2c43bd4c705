import Electrostatics.Proofs.Slice.Sampling
import Mathlib.Data.List.Induction

namespace Electrostatics

/-!
# Histories of calls

A session is called in three ways, in any order and any number of times.  Of such a
history only the last accepted request, the last resizing and the last plane are recent;
everything that is known about a session will be derived from those three.
-/

/-- A call on a session.  A request names the formulas to show. -/
inductive Call (Request α : Type) where
  | setFormula (request : Request)
  | resize (side : Nat)
  | definePlane (plane : Plane) (value : α)
  deriving Repr, DecidableEq

namespace Call

variable {Request α : Type}

/-- The request of a call, if it is one that is accepted. -/
def accepted? (accepts : Request → Bool) : Call Request α → Option Request
  | .setFormula request => if accepts request then some request else none
  | .resize _ => none
  | .definePlane _ _ => none

/-- The number of samples along a side that a call asks for. -/
def side? : Call Request α → Option Nat
  | .setFormula _ => none
  | .resize side => some side
  | .definePlane _ _ => none

/-- The plane that a call asks for, and the value at which its normal coordinate is held. -/
def plane? : Call Request α → Option (Plane × α)
  | .setFormula _ => none
  | .resize _ => none
  | .definePlane plane value => some (plane, value)

/-- Whether a call does anything; only a request can fail to. -/
def isAccepted (accepts : Request → Bool) : Call Request α → Bool
  | .setFormula request => accepts request
  | .resize _ => true
  | .definePlane _ _ => true

end Call

/-- What is recent in a history. -/
structure Recent (Request α : Type) where
  request : Option Request
  side : Option Nat
  plane : Option (Plane × α)
  deriving Repr, DecidableEq

namespace Recent

variable {Request α : Type}

/-- The last accepted request, the last resizing and the last plane of a history. -/
def ofCalls
    (accepts : Request → Bool)
    (calls : List (Call Request α)) :
    Recent Request α :=
  { request := (calls.filterMap (Call.accepted? accepts)).getLast?
    side := (calls.filterMap Call.side?).getLast?
    plane := (calls.filterMap Call.plane?).getLast? }

/-- The recent calls themselves, at most one of each kind. -/
def calls (recent : Recent Request α) : List (Call Request α) :=
  (recent.request.map Call.setFormula).toList ++
    (recent.side.map Call.resize).toList ++
    (recent.plane.map (fun held => Call.definePlane held.1 held.2)).toList

/-- What is recent after one more call. -/
def record
    (accepts : Request → Bool)
    (recent : Recent Request α) :
    Call Request α →
    Recent Request α
  | .setFormula request =>
      if accepts request then { recent with request := some request } else recent
  | .resize side => { recent with side := some side }
  | .definePlane plane value => { recent with plane := some (plane, value) }

variable
  {accepts : Request → Bool}
  {history order : List (Call Request α)}

theorem ofCalls_snoc
    (history : List (Call Request α))
    (call : Call Request α) :
    ofCalls accepts (history ++ [call]) = (ofCalls accepts history).record accepts call := by
  cases call with
  | setFormula request =>
      by_cases accepted : accepts request = true
      · simp [ofCalls, record, Call.accepted?, Call.side?, Call.plane?, accepted]
      · simp [ofCalls, record, Call.accepted?, Call.side?, Call.plane?, accepted]
  | resize side => simp [ofCalls, record, Call.accepted?, Call.side?, Call.plane?]
  | definePlane plane value =>
      simp [ofCalls, record, Call.accepted?, Call.side?, Call.plane?]

/-- A call that is refused is not recent. -/
theorem record_of_rejected
    {call : Call Request α}
    (rejected : call.isAccepted accepts = false)
    (recent : Recent Request α) :
    recent.record accepts call = recent := by
  cases call with
  | setFormula request => exact if_neg (Bool.eq_false_iff.mp rejected)
  | resize _ => cases rejected
  | definePlane _ _ => cases rejected

theorem accepts_of_request
    {request : Request}
    (recent : (ofCalls accepts history).request = some request) :
    accepts request = true := by
  have member := List.mem_of_getLast? recent
  obtain ⟨call, _, accepted⟩ := List.mem_filterMap.mp member
  cases call with
  | setFormula other =>
      simp only [Call.accepted?, Option.ite_none_right_eq_some, Option.some.injEq] at accepted
      obtain ⟨isAccepted, rfl⟩ := accepted
      exact isAccepted
  | resize _ => cases accepted
  | definePlane _ _ => cases accepted

/-- Where there is at most one entry, it is the last one in every order. -/
theorem getLast?_of_perm_toList
    {β : Type}
    {entries : List β}
    {entry : Option β}
    (perm : entries.Perm entry.toList) :
    entries.getLast? = entry := by
  cases entry with
  | none => rw [List.perm_nil.mp perm]; rfl
  | some value => rw [List.perm_singleton.mp perm]; rfl

theorem filterMap_accepted?_calls
    {recent : Recent Request α}
    (isAccepted : ∀ request ∈ recent.request, accepts request = true) :
    recent.calls.filterMap (Call.accepted? accepts) = recent.request.toList := by
  obtain ⟨request, side, plane⟩ := recent
  cases request with
  | none => cases side <;> cases plane <;> rfl
  | some request =>
      have accepted := isAccepted request rfl
      cases side <;> cases plane <;>
        simp [calls, List.filterMap_cons, Call.accepted?, accepted]

theorem filterMap_side?_calls (recent : Recent Request α) :
    recent.calls.filterMap Call.side? = recent.side.toList := by
  obtain ⟨request, side, plane⟩ := recent
  cases request <;> cases side <;> cases plane <;> rfl

theorem filterMap_plane?_calls (recent : Recent Request α) :
    recent.calls.filterMap Call.plane? = recent.plane.toList := by
  obtain ⟨request, side, plane⟩ := recent
  cases request <;> cases side <;> cases plane <;> rfl

/-- The recent calls, in any order, leave as recent what was recent. -/
theorem ofCalls_of_perm
    (perm : order.Perm (ofCalls accepts history).calls) :
    ofCalls accepts order = ofCalls accepts history := by
  have requests := perm.filterMap (Call.accepted? accepts)
  have sides := perm.filterMap Call.side?
  have planes := perm.filterMap Call.plane?
  rw [filterMap_accepted?_calls (fun _ recent => accepts_of_request recent)] at requests
  rw [filterMap_side?_calls] at sides
  rw [filterMap_plane?_calls] at planes
  have request := getLast?_of_perm_toList requests
  have side := getLast?_of_perm_toList sides
  have plane := getLast?_of_perm_toList planes
  rw [ofCalls, request, side, plane]

/--
What every call preserves holds after every history, for what is recent there.
-/
theorem reflected_by_run
    {Session : Type}
    {apply : Session → Call Request α → Session}
    {start : Session}
    {Reflects : Recent Request α → Session → Prop}
    (initially : Reflects (ofCalls accepts []) start)
    (preserved :
      ∀ recent session call,
        Reflects recent session →
        Reflects (recent.record accepts call) (apply session call))
    (history : List (Call Request α)) :
    Reflects (ofCalls accepts history) (history.foldl apply start) := by
  induction history using List.reverseRecOn with
  | nil => exact initially
  | append_singleton earlier call inductionHypothesis =>
      rw [ofCalls_snoc, List.foldl_append]
      exact preserved _ _ call inductionHypothesis

/-- Calls that do nothing can be left out of a history. -/
theorem foldl_filter_isAccepted
    {Session : Type}
    {apply : Session → Call Request α → Session}
    (rejected :
      ∀ session call, call.isAccepted accepts = false → apply session call = session)
    (history : List (Call Request α))
    (start : Session) :
    (history.filter (Call.isAccepted accepts)).foldl apply start =
      history.foldl apply start := by
  induction history generalizing start with
  | nil => rfl
  | cons call later inductionHypothesis =>
      by_cases accepted : call.isAccepted accepts = true
      · rw [List.filter_cons_of_pos accepted]
        exact inductionHypothesis (apply start call)
      · have same := rejected start call (by simpa using accepted)
        rw [List.filter_cons_of_neg accepted, List.foldl_cons, same]
        exact inductionHypothesis start

end Recent

variable {α : Type} [Scalar α]

/-- The viewpoint of a fresh session that is given what is recent. -/
def Recent.viewpoint
    {Request : Type}
    (settings : SliceSettings α)
    (recent : Recent Request α) :
    Viewpoint α :=
  let start := Viewpoint.start settings
  let resized := recent.side.elim start start.resize
  recent.plane.elim resized (fun held => resized.definePlane held.1 held.2)

namespace SameView

variable
  {Request : Type}
  {settings : SliceSettings α}
  {recent : Recent Request α}
  {viewpoint : Viewpoint α}

theorem record_setFormula
    (accepts : Request → Bool)
    (same : SameView viewpoint (recent.viewpoint settings))
    (request : Request) :
    SameView viewpoint
      ((recent.record accepts (.setFormula request)).viewpoint settings) := by
  simp only [Recent.record]
  split <;> exact same

theorem record_resize
    (accepts : Request → Bool)
    (same : SameView viewpoint (recent.viewpoint settings))
    (side : Nat) :
    SameView (viewpoint.resize side)
      ((recent.record accepts (.resize side)).viewpoint settings) := by
  have resized := same.resize side
  obtain ⟨request, earlier, plane⟩ := recent
  cases earlier <;> cases plane <;> exact resized

theorem record_definePlane
    (accepts : Request → Bool)
    (same : SameView viewpoint (recent.viewpoint settings))
    (plane : Plane)
    (value : α) :
    SameView (viewpoint.definePlane plane value)
      ((recent.record accepts (.definePlane plane value)).viewpoint settings) := by
  refine SameView.definePlane ?_ plane value
  have sameSettings := same.settings
  obtain ⟨request, side, earlier⟩ := recent
  cases earlier <;> exact sameSettings

end SameView

end Electrostatics
