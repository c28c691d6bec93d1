import FcamGateway.AllowList
import Mathlib.Data.List.TakeWhile

/-! Which accepted requests keep the paths they send upstream inside the allow-list. The
segment that the middleware checks is the one that every handler's path begins with, so it
is the dot segments behind it that decide. -/
namespace FcamGateway.AllowList

open DotSegments

def dots : Dots Text := ⟨['.'], ['.', '.'], []⟩

/-- The version of a template's path; a path for Exa has none. -/
def Template.version (request : Request) : Template → List Text
  | .spliced (.literal version :: _) _ => [version.toList]
  | .spliced _ _ => []
  | .requestPath => (segments request.urlPath).take 1
  | .withoutExa => []

/-- The segments of a template's path behind its version, where the client's part ends
with the path of the URL that it is in. -/
def Template.below (request : Request) (parameter : Text) : Template → List Text
  | .spliced (_ :: parts) _ =>
    segments ((render (parts.map (Part.fill parameter))).takeWhile (!ends ·))
  | .spliced [] _ => []
  | .requestPath => (segments request.urlPath).drop 1
  | .withoutExa => segments (stripExa request.urlPath)

/-- A text that a URL's path keeps. -/
def Safe (text : Text) : Prop := ∀ c ∈ text, ends c = false ∧ dropped c = false

instance (text : Text) : Decidable (Safe text) := List.decidableBAll _ text

/-- A fixed segment: one that a URL's path keeps whole, and no dot segment. -/
def Clean (text : Text) : Prop := Safe text ∧ '/' ∉ text ∧ ¬ dots.Dot text

instance (text : Text) : Decidable (Clean text) := inferInstanceAs (Decidable (_ ∧ _ ∧ _))

/-- A path that is empty or goes on with a slash. -/
def Opens (text : Text) : Prop := text = [] ∨ ∃ rest, text = '/' :: rest

variable {settings : Settings} {request : Request} {route : Route} {template : Template}
  {parameter front back path text : Text} {segment : Text} {rest : List Text} {body : Bytes}

/-- The interfaces whose paths the middleware checks against the Firecrawl list. -/
def interfaces : List String := ["api", "v1", "v2"]

/-- Whether a template's path begins with the segment that its route's pattern fixes, or is
the request's own. -/
def Template.fits (pattern : List Part) : Template → Bool
  | .spliced (.literal version :: .literal inside :: _) _ =>
    match pattern with
    | .literal interface :: .literal segment :: _ => interface ∈ interfaces &&
      version ∈ ["v1", "v2"] && segment = inside && Clean segment.toList
    | _ => false
  | .spliced _ _ => false
  | .requestPath =>
    match pattern with
    | .literal interface :: _ :: _ => interface ∈ ["v1", "v2"]
    | _ => false
  | .withoutExa =>
    match pattern with
    | [.literal interface, .literal segment] => interface = "exa" && Clean segment.toList
    | _ => false

end FcamGateway.AllowList
