import Electrostatics.Samples.Basic

namespace Electrostatics.Samples

/-!
# Integrals of samples

Simpson's rule on equally spaced samples, and the running integral built from it.
-/

open scoped Scalar

variable {α : Type} [Scalar α]

/-- Add samples, `count` of them from an index on, weighted by four and two in turn. -/
def addAlternating (samples : Samples α) (start : Nat) : (count offset : Nat) → α → α
  | 0, _, sum => sum
  | count + 1, offset, sum =>
      addAlternating samples start count (offset + 1)
        (sum + (if offset % 2 = 0 then 2 else 4) * samples.get (start + offset))

/-- The next even number. -/
def evenAtLeast (count : Nat) : Nat :=
  if count % 2 = 1 then count + 1 else count

/--
Simpson's rule with unit spacing between two indices.  An odd number of intervals is
made even by one more sample, which past the end reads as zero.
-/
def simpson (samples : Samples α) (first last : Nat) : α :=
  if last ≤ first then
    0
  else
    let intervals := evenAtLeast (last - first)
    let ends := samples.get first + samples.get (first + intervals)
    samples.addAlternating first (intervals - 1) 1 ends / 3

/--
The integral from sample one to an index.  An even number of intervals is left to
Simpson's rule and an odd one ends with its three-eighths form; a single interval
uses the parabola through the next sample, if there is one.
-/
def integralTo (samples : Samples α) (h : α) (index : Nat) : α :=
  let intervals := index - 1
  if intervals = 0 then
    0
  else if intervals = 1 then
    if index < samples.size then
      h * (5 * samples.get 1 + 8 * samples.get index - samples.get (index + 1)) / 12
    else
      h * (samples.get 1 + samples.get index) / 2
  else if intervals % 2 = 0 then
    h * samples.simpson 1 index
  else
    let middle := index - 3
    let tail :=
      3 * h / 8 *
        (samples.get middle + 3 * samples.get (middle + 1) +
          3 * samples.get (middle + 2) + samples.get index)
    h * samples.simpson 1 middle + tail

/-- The running integral from the first sample, at every sample. -/
def runningIntegral (samples : Samples α) (h : α) : Samples α :=
  ofFn samples.size (samples.integralTo h)

end Electrostatics.Samples
