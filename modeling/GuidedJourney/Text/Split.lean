namespace GuidedJourney.Text

def split (sep : Char) : List Char → List (List Char)
  | [] => [[]]
  | c :: cs =>
    if c = sep then [] :: split sep cs
    else match split sep cs with
      | part :: parts => (c :: part) :: parts
      | [] => [[c]]

def cut (sep : Char) (cs : List Char) : List Char × Option (List Char) :=
  match cs.dropWhile (· != sep) with
  | [] => (cs, none)
  | _ :: rest => (cs.takeWhile (· != sep), some rest)

variable {sep : Char}

theorem split_cons (sep : Char) (cs : List Char) : ∃ first rest, split sep cs = first :: rest := by
  cases cs with
  | nil => exact ⟨[], [], rfl⟩
  | cons c cs =>
      rw [Text.split]
      split
      · exact ⟨_, _, rfl⟩
      · split <;> exact ⟨_, _, rfl⟩

theorem split_append (xs ys : List Char) :
    split sep (xs ++ sep :: ys) = split sep xs ++ split sep ys := by
  induction xs with
  | nil => simp [split]
  | cons c xs ih =>
      obtain ⟨first, rest, hsplit⟩ := split_cons sep xs
      rw [List.cons_append, split, split, ih, hsplit]
      by_cases hc : c = sep <;> simp [hc]

theorem split_of_notMem {xs : List Char} (h : sep ∉ xs) : split sep xs = [xs] := by
  induction xs with
  | nil => rfl
  | cons c xs ih =>
      rw [List.mem_cons, not_or] at h
      rw [split, ih h.2, if_neg (Ne.symm h.1)]

theorem ne_of_notMem {xs : List Char} (h : sep ∉ xs) : ∀ c ∈ xs, (c != sep) = true := by
  intro c hc
  rw [bne_iff_ne]
  rintro rfl
  exact h hc

theorem cut_append {xs : List Char} (h : sep ∉ xs) (ys : List Char) :
    cut sep (xs ++ sep :: ys) = (xs, some ys) := by
  simp [cut, List.dropWhile_append_of_pos (ne_of_notMem h), List.takeWhile_append_of_pos (ne_of_notMem h)]

theorem cut_of_notMem {xs : List Char} (h : sep ∉ xs) : cut sep xs = (xs, none) := by
  have hnone : (xs ++ []).dropWhile (· != sep) = [].dropWhile (· != sep) :=
    List.dropWhile_append_of_pos (ne_of_notMem h)
  rw [List.append_nil] at hnone
  rw [cut, hnone]
  rfl

end GuidedJourney.Text
