import Mathlib.Data.List.Basic

/-! Removal of dot segments from an absolute path, given as its segments. A walk along
the segments either stays below the segment it is in or climbs out of it, and what it does
after the climb does not depend on where it was before. -/
namespace FcamGateway.DotSegments

variable {Segment : Type} [DecidableEq Segment]

/-- The two dot segments and the segment that a slash at the end leaves. -/
structure Dots (Segment : Type) where
  here : Segment
  up : Segment
  last : Segment

def Dots.Dot (dots : Dots Segment) (segment : Segment) : Prop :=
  segment = dots.here ∨ segment = dots.up

instance (dots : Dots Segment) (segment : Segment) : Decidable (dots.Dot segment) :=
  inferInstanceAs (Decidable (_ ∨ _))

/-- Where one segment leads from the place that `out` is the way back from. -/
def Dots.enter (dots : Dots Segment) (out : List Segment) (segment : Segment) : List Segment :=
  if segment = dots.here then out
  else if segment = dots.up then out.tail
  else segment :: out

/-- The segments of a path without its dot segments, after those that `out` holds in
reverse. A dot segment at the end leaves the slash before it. -/
def Dots.remove (dots : Dots Segment) (out : List Segment) : List Segment → List Segment
  | [] => out.reverse
  | segment :: rest =>
    if rest = [] ∧ dots.Dot segment then (dots.last :: dots.enter out segment).reverse
    else dots.remove (dots.enter out segment) rest

variable {dots : Dots Segment} {out front rest tail : List Segment} {segment : Segment}

end FcamGateway.DotSegments
