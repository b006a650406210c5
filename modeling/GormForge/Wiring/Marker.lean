import GormForge.Text.Blank
import GormForge.Text.Lines
import GormForge.Wiring.Error
import GormForge.Wiring.Insertion

/-!
# Marker lines

**Input.**  The content of a provider file and an insertion.

**Algorithm.**  Lines are compared without the blanks around them.  An insertion counts as
present when one of the lines of its text occurs anywhere in the content; otherwise its text
goes right above the only marker line and ends the way that line ends.

**Results.**  `patchContent` changes a content in at most one place and refuses a marker
that stands on several lines.
-/

namespace GormForge
namespace Insertion

/-- The lines of an insertion's text that are not blank, without the blanks around them. -/
def keyLines (insertion : Insertion) : List (List Char) :=
  ((Text.lines insertion.text.toList).map Text.trimChars).filter (· ≠ [])

/-- Whether a content already holds a line of the insertion. -/
def isPresent (insertion : Insertion) (content : List Char) : Bool :=
  insertion.keyLines.any fun line => Text.contains line content

/-- The marker without the blanks around it. -/
def markerText (insertion : Insertion) : List Char :=
  Text.trimChars insertion.marker.toList

/-- The places, from zero, of the marker among the parts between line feeds. -/
def markerPlaces (insertion : Insertion) (parts : List (List Char)) : List Nat :=
  (parts.zipIdx.filter fun part => Text.trimChars part.1 = insertion.markerText).map (·.2)

/-- The text to be inserted above a marker line, ending the way that line ends. -/
def lineFor (insertion : Insertion) (markerLine : List Char) : List Char :=
  if markerLine.getLast? = some '\r' then
    insertion.text.toList ++ ['\r']
  else
    insertion.text.toList

/-- The parts with the text inserted above the one at place `i`. -/
def insertAt (insertion : Insertion) (i : Nat) (parts : List (List Char)) : List (List Char) :=
  match parts.drop i with
  | [] => parts
  | markerLine :: rest => parts.take i ++ insertion.lineFor markerLine :: markerLine :: rest

/-- Patch the content of a file. -/
def patchContent (insertion : Insertion) (path : Path) (content : String) :
    Except WireError (String × Patch) :=
  if insertion.isPresent content.toList then
    .ok (content, .alreadyPresent)
  else
    let parts := Text.pieces content.toList
    match insertion.markerPlaces parts with
    | [] => .ok (content, .noMarker)
    | [i] =>
        .ok (String.ofList (Text.joinLines (insertion.insertAt i parts)), .inserted (i + 1))
    | places =>
        .error (.ambiguousMarker path (String.ofList insertion.markerText) (places.map (· + 1)))

/-- Patch the content of a file with several insertions, one after the other. -/
def patchAll (path : Path) : List Insertion → String → Except WireError (String × List PatchOutcome)
  | [], content => .ok (content, [])
  | insertion :: rest, content =>
    match insertion.patchContent path content with
    | .error e => .error e
    | .ok (patched, patch) =>
      match patchAll path rest patched with
      | .error e => .error e
      | .ok (final, outcomes) => .ok (final, ⟨path, insertion.text, patch⟩ :: outcomes)

end Insertion
end GormForge
