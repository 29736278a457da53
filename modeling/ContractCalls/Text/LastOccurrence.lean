/-!
Contract: insertion before the last place where a marker stands.

Owns the search from the right and its result when the marker is absent: the
text itself.  An empty marker stands at the end of every text.
-/

set_option autoImplicit false

namespace ContractCalls.Text

/-- The text with the insertion before the last occurrence of the marker, if
the marker occurs. -/
def insertBeforeLast? (marker insertion : List Char) : List Char → Option (List Char)
  | [] => if marker.isEmpty then some insertion else none
  | char :: rest =>
    match insertBeforeLast? marker insertion rest with
    | some changed => some (char :: changed)
    | none =>
      if marker.isPrefixOf (char :: rest) then some (insertion ++ char :: rest) else none

/-- Insert before the last occurrence of the marker; a text without the marker
stays as it is. -/
def insertBeforeLast (text marker insertion : String) : String :=
  match insertBeforeLast? marker.toList insertion.toList text.toList with
  | some changed => String.ofList changed
  | none => text

/-- A marker of one character that does not occur later is the place of the
insertion. -/
theorem insertBeforeLast?_append (before after insertion : List Char) (marker : Char)
    (absent : marker ∉ after) :
    insertBeforeLast? [marker] insertion (before ++ marker :: after) =
      some (before ++ insertion ++ marker :: after) := by
  have noLater (rest : List Char) (missing : marker ∉ rest) :
      insertBeforeLast? [marker] insertion rest = none := by
    induction rest with
    | nil => rfl
    | cons char rest inductionHypothesis =>
      simp only [List.mem_cons, not_or] at missing
      simp [insertBeforeLast?, inductionHypothesis missing.2, List.isPrefixOf, missing.1]
  induction before with
  | nil => simp [insertBeforeLast?, noLater after absent, List.isPrefixOf]
  | cons char before inductionHypothesis =>
    simp [insertBeforeLast?, inductionHypothesis]

end ContractCalls.Text
