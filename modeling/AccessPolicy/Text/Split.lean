namespace AccessPolicy.Text

/-- The parts between the occurrences of `sep`; there is one more of them than occurrences. -/
def splitOn (sep : Char) (cs : List Char) : List (List Char) :=
  cs.foldr (fun c parts =>
    if c = sep then [] :: parts
    else match parts with
      | [] => [[c]]
      | part :: rest => (c :: part) :: rest) [[]]

theorem splitOn_eq_list_splitOn (sep : Char) (cs : List Char) : splitOn sep cs = cs.splitOn sep := by
  induction cs with
  | nil => rfl
  | cons c cs ih =>
    rw [List.splitOn_cons_eq_if_modifyHead, ← ih, splitOn, List.foldr_cons, ← splitOn]
    by_cases hsep : c = sep
    · simp [hsep]
    · rw [if_neg hsep, if_neg (by simpa using hsep)]
      cases hparts : splitOn sep cs with
      | nil => exact absurd (ih.symm.trans hparts) (List.splitOn_ne_nil sep cs)
      | cons part rest => rfl

end AccessPolicy.Text
