/-!
Replacing every occurrence of a piece of text, from left to right and without overlap.
-/
namespace DeclTree.Text

/-- Copies a list, with `new` for each occurrence of `piece`. The count says how many characters
of an occurrence that has been replaced are still to be dropped. -/
def replaceFrom (piece new : List Char) : Nat → List Char → List Char
  | _, [] => []
  | k + 1, _ :: cs => replaceFrom piece new k cs
  | 0, c :: cs =>
    if piece.isPrefixOf (c :: cs) then new ++ replaceFrom piece new (piece.length - 1) cs
    else c :: replaceFrom piece new 0 cs

/-- The text with `new` for each occurrence of `piece`, which must not be empty. -/
def replaceAll (piece new s : String) : String :=
  String.ofList (replaceFrom piece.toList new.toList 0 s.toList)

theorem replaceFrom_of_not_mem {piece new cs : List Char} {c : Char}
    (hc : c ∈ piece) (h : c ∉ cs) : replaceFrom piece new 0 cs = cs := by
  induction cs with
  | nil => rfl
  | cons d cs ih =>
    have hp : ¬ piece.isPrefixOf (d :: cs) := by
      intro hpre
      exact h ((List.isPrefixOf_iff_prefix.1 hpre).subset hc)
    have ht : c ∉ cs := fun hm => h (List.mem_cons_of_mem _ hm)
    simp [replaceFrom, hp, ih ht]

end DeclTree.Text
