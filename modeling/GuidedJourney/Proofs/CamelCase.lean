import GuidedJourney.Text.Camel
import GuidedJourney.Text.Word
import Mathlib

namespace GuidedJourney.Text

def isSeparator (c : Char) : Bool := !c.isAlphanum

def unbroken? : List Char → Option (Char × List Char)
  | [] => none
  | c :: cs => if c = '\n' then none else some (c, cs)

/-- The character after a run of separators, and what follows it. The run gives up its last separators
if otherwise no character follows, or only a line break. -/
def gap? : List Char → Option (Char × List Char)
  | [] => none
  | c :: cs => if isSeparator c then (gap? cs).or (unbroken? cs) else none

theorem unbroken?_length {cs rest : List Char} {d : Char} (h : unbroken? cs = some (d, rest)) :
    rest.length < cs.length := by
  cases cs with
  | nil => cases h
  | cons c cs =>
      rw [unbroken?] at h
      split at h
      · cases h
      · obtain ⟨rfl, rfl⟩ := Prod.mk.inj (Option.some.inj h)
        exact Nat.lt_succ_self _

theorem gap?_length {cs rest : List Char} {d : Char} (h : gap? cs = some (d, rest)) :
    rest.length < cs.length := by
  induction cs with
  | nil => cases h
  | cons c cs ih =>
      rw [gap?] at h
      split at h
      · rcases Option.or_eq_some_iff.mp h with h | ⟨-, h⟩
        · exact Nat.lt_succ_of_lt (ih h)
        · exact Nat.lt_succ_of_lt (unbroken?_length h)
      · cases h

def capitalizeGaps : List Char → List Char
  | [] => []
  | c :: cs =>
    if h : (gap? (c :: cs)).isSome then
      capital ((gap? (c :: cs)).get h).1 ++ capitalizeGaps ((gap? (c :: cs)).get h).2
    else c :: capitalizeGaps cs
termination_by cs => cs.length
decreasing_by
  · exact gap?_length (Option.some_get h).symm
  · exact Nat.lt_succ_self _

theorem capitalizeGaps_some {cs rest : List Char} {d : Char} (h : gap? cs = some (d, rest)) :
    capitalizeGaps cs = capital d ++ capitalizeGaps rest := by
  cases cs with
  | nil => cases h
  | cons c cs =>
      rw [capitalizeGaps, dif_pos (Option.isSome_of_eq_some h)]
      simp only [h, Option.get_some]

theorem capitalizeGaps_none {c : Char} {cs : List Char} (h : gap? (c :: cs) = none) :
    capitalizeGaps (c :: cs) = c :: capitalizeGaps cs := by
  rw [capitalizeGaps, dif_neg (by simp [h])]

theorem isAlphanum_ascii {c : Char} (h : c.isAlphanum = true) : c.toNat < 0x80 := by
  rcases Bool.or_eq_true_iff.mp h with hletter | hdigit
  · have hbounds := isAlpha_bounds hletter
    omega
  · obtain ⟨-, hhigh⟩ := Bool.and_eq_true_iff.mp hdigit
    have hhigh : c.toNat ≤ 57 := of_decide_eq_true hhigh
    omega

theorem isAlphanum_toUpper (c : Char) : c.toUpper.isAlphanum = c.isAlphanum := by
  by_cases h : c.isLower
  · simp [Char.isAlphanum, Char.isAlpha, h]
  · rw [Char.toUpper_eq_of_not_isLower h]

theorem isAlphanum_toLower (c : Char) : c.toLower.isAlphanum = c.isAlphanum := by
  by_cases h : c.isUpper
  · simp [Char.isAlphanum, Char.isAlpha, h]
  · rw [Char.toLower_eq_of_not_isUpper h]

theorem toUpper_of_separator {c : Char} (h : isSeparator c = true) : c.toUpper = c := by
  refine Char.toUpper_eq_of_not_isLower fun hlower => ?_
  simp [isSeparator, Char.isAlphanum, Char.isAlpha, hlower] at h

theorem capital_ascii {c : Char} (h : c.toNat < 0x80) : capital c = [c.toUpper] := if_pos h

variable {seps rest : List Char}

theorem gap?_word (h : ∀ c ∈ seps, isSeparator c = true) (hne : seps ≠ []) {d : Char}
    (hd : isSeparator d = false) : gap? (seps ++ d :: rest) = some (d, rest) := by
  have hbreak : d ≠ '\n' := by
    rintro rfl
    cases hd
  induction seps with
  | nil => exact absurd rfl hne
  | cons c seps ih =>
      rw [List.forall_mem_cons] at h
      rw [List.cons_append, gap?, if_pos h.1]
      cases seps with
      | nil => simp [gap?, unbroken?, hd, hbreak]
      | cons e seps => rw [ih h.2 (List.cons_ne_nil _ _), Option.some_or]

theorem gap?_breaks (h : ∀ c ∈ seps, c = '\n') (c : Char) : gap? (c :: seps) = none := by
  induction seps generalizing c with
  | nil => simp [gap?, unbroken?]
  | cons d seps ih =>
      rw [List.forall_mem_cons] at h
      rw [gap?, ih h.2 d, unbroken?, if_pos h.1, Option.or_none, ite_self]

theorem gap?_end {before : List Char} {c d : Char} (hc : isSeparator c = true)
    (hbefore : ∀ x ∈ before, isSeparator x = true) (hd : d ≠ '\n') {breaks : List Char}
    (h : ∀ x ∈ breaks, x = '\n') : gap? (c :: (before ++ d :: breaks)) = some (d, breaks) := by
  induction before generalizing c with
  | nil =>
      rw [List.nil_append, gap?, if_pos hc, gap?_breaks h, unbroken?, if_neg hd, Option.none_or]
  | cons e before ih =>
      rw [List.forall_mem_cons] at hbefore
      rw [List.cons_append, gap?, if_pos hc, ih hbefore.1 hbefore.2, Option.some_or]

theorem capitalizeGaps_breaks (h : ∀ c ∈ seps, c = '\n') : capitalizeGaps seps = seps := by
  induction seps with
  | nil => rw [capitalizeGaps]
  | cons c seps ih =>
      rw [List.forall_mem_cons] at h
      rw [capitalizeGaps_none (gap?_breaks h.2 c), ih h.2]

theorem joinWords_run {run : List Char} (h : ∀ c ∈ seps, isSeparator c = true) :
    joinWords run (seps ++ rest) = joinWords (seps.reverse ++ run) rest := by
  induction seps generalizing run with
  | nil => rfl
  | cons c seps ih =>
      rw [List.forall_mem_cons] at h
      have hc : c.isAlphanum = false := by simpa [isSeparator] using h.1
      rw [List.cons_append, joinWords, hc, if_neg Bool.false_ne_true, ih h.2]
      simp

theorem dropEnd_append {p : Char → Bool} (xs : List Char) {ys : List Char} (h : ∀ c ∈ ys, p c = true) :
    dropEnd p (xs ++ ys) = dropEnd p xs := by
  rw [dropEnd, List.reverse_append,
    List.dropWhile_append_of_pos fun c hc => h c (List.mem_reverse.mp hc), dropEnd]

theorem dropEnd_cons {p : Char → Bool} {c : Char} (h : p c = false) (xs : List Char) :
    dropEnd p (c :: xs) = c :: dropEnd p xs := by
  rw [dropEnd, List.reverse_cons, List.dropWhile_append, dropEnd]
  split
  · rename_i hnil
    rw [List.isEmpty_iff.mp hnil]
    simp [h]
  · simp

theorem dropEnd_capitalizeGaps_end (h : ∀ c ∈ seps, isSeparator c = true) :
    dropEnd isSeparator (capitalizeGaps seps) = tailForm seps.reverse := by
  cases seps with
  | nil => rw [capitalizeGaps]; rfl
  | cons c seps =>
      rw [List.forall_mem_cons] at h
      have hbreaks : ∀ x ∈ (seps.reverse.takeWhile (· == '\n')).reverse, x = '\n' := by
        intro x hx
        have hbreak := List.mem_takeWhile_imp (List.mem_reverse.mp hx)
        exact eq_of_beq hbreak
      have hsplit : seps = (seps.reverse.dropWhile (· == '\n')).reverse ++
          (seps.reverse.takeWhile (· == '\n')).reverse := by
        rw [← List.reverse_append, List.takeWhile_append_dropWhile, List.reverse_reverse]
      have htail : (c :: seps).reverse.dropLast = seps.reverse := by simp
      rw [tailForm, htail]
      generalize hfront : seps.reverse.dropWhile (· == '\n') = front at hsplit ⊢
      generalize (seps.reverse.takeWhile (· == '\n')).reverse = breaks at hsplit hbreaks
      subst hsplit
      cases front with
      | nil =>
          -- Only line breaks come after the first separator: there is no gap, and all of them are removed.
          rw [List.reverse_nil, List.nil_append] at h ⊢
          rw [capitalizeGaps_none (gap?_breaks hbreaks c), capitalizeGaps_breaks hbreaks,
            ← List.nil_append (c :: breaks), dropEnd_append [] (List.forall_mem_cons.mpr h)]
          rfl
      | cons d before =>
          have hd : d ≠ '\n' := by
            have hhead := List.head?_dropWhile_not (· == '\n') (((d :: before).reverse ++ breaks).reverse)
            rw [hfront] at hhead
            simpa using hhead
          rw [List.reverse_cons, List.append_assoc, List.singleton_append] at h ⊢
          rw [List.forall_mem_append, List.forall_mem_cons] at h
          rw [capitalizeGaps_some (gap?_end h.1 h.2.1 hd hbreaks), capitalizeGaps_breaks hbreaks,
            dropEnd_append _ h.2.2.2]
          rfl

theorem isAlphanum_of_not_isSeparator {c : Char} (h : isSeparator c = false) : c.isAlphanum = true := by
  simpa [isSeparator] using h

theorem dropEnd_capitalizeGaps_letter {d : Char} (hd : isSeparator d = false) :
    dropEnd isSeparator (capitalizeGaps (d :: rest)) = d :: dropEnd isSeparator (capitalizeGaps rest) := by
  have hgap : gap? (d :: rest) = none := by rw [gap?, hd, if_neg Bool.false_ne_true]
  rw [capitalizeGaps_none hgap, dropEnd_cons hd]

theorem dropEnd_capitalizeGaps_word (h : ∀ c ∈ seps, isSeparator c = true) (hne : seps ≠ []) {d : Char}
    (hd : isSeparator d = false) : dropEnd isSeparator (capitalizeGaps (seps ++ d :: rest)) =
      d.toUpper :: dropEnd isSeparator (capitalizeGaps rest) := by
  have hletter := isAlphanum_of_not_isSeparator hd
  have hupper : isSeparator d.toUpper = false := by rwa [isSeparator, isAlphanum_toUpper]
  rw [capitalizeGaps_some (gap?_word h hne hd), capital_ascii (isAlphanum_ascii hletter),
    List.singleton_append, dropEnd_cons hupper]

theorem joinWords_eq (cs : List Char) : joinWords [] cs = dropEnd isSeparator (capitalizeGaps cs) := by
  -- The text is a run of separators and then, unless it ends, a letter and a shorter text.
  induction hlength : cs.length using Nat.strongRecOn generalizing cs with
  | ind n ih =>
    subst hlength
    have hseps : ∀ c ∈ cs.takeWhile isSeparator, isSeparator c = true := fun _ => List.mem_takeWhile_imp
    have hsplit := List.takeWhile_append_dropWhile (p := isSeparator) (l := cs)
    have hhead := List.head?_dropWhile_not isSeparator cs
    generalize cs.takeWhile isSeparator = seps at hseps hsplit
    generalize cs.dropWhile isSeparator = rest at hsplit hhead
    subst hsplit
    rw [joinWords_run hseps, List.append_nil]
    cases rest with
    | nil => rw [List.append_nil, dropEnd_capitalizeGaps_end hseps, joinWords]
    | cons d rest =>
        have hd : isSeparator d = false := by simpa using hhead
        have hshort : rest.length < (seps ++ d :: rest).length := by
          rw [List.length_append, List.length_cons]
          omega
        rw [joinWords, if_pos (isAlphanum_of_not_isSeparator hd), ih _ hshort _ rfl]
        cases seps with
        | nil => rw [List.nil_append, dropEnd_capitalizeGaps_letter hd]; rfl
        | cons c seps =>
            rw [dropEnd_capitalizeGaps_word hseps (List.cons_ne_nil _ _) hd]
            simp

theorem camelCase_toList (s : String) :
    (camelCase s).toList = (joinWords [] s.toList).modifyHead Char.toLower := by
  rw [camelCase]
  cases joinWords [] s.toList with
  | nil => rfl
  | cons c cs => exact String.toList_ofList

/-- Camel case as the two substitutions and the first letter in lower case. -/
theorem camelCase_substitutions (s : String) : (camelCase s).toList =
    (dropEnd isSeparator (capitalizeGaps s.toList)).modifyHead Char.toLower := by
  rw [camelCase_toList, joinWords_eq]

theorem tailForm_ascii {run : List Char} (h : ∀ c ∈ run, isSeparator c = true ∧ c.toNat < 0x80) :
    tailForm run = [] := by
  unfold tailForm
  split
  · rfl
  · rename_i c rest hrest
    have hmem : c ∈ run := List.mem_of_mem_dropLast <|
      (List.dropWhile_suffix _).mem (hrest ▸ List.mem_cons_self)
    obtain ⟨hc, hascii⟩ := h c hmem
    rw [capital_ascii hascii, toUpper_of_separator hc]
    exact dropEnd_append [] (List.forall_mem_singleton.mpr hc)

theorem joinWords_letters {run cs : List Char}
    (hrun : ∀ c ∈ run, isSeparator c = true ∧ c.toNat < 0x80) (hcs : ∀ c ∈ cs, c.toNat < 0x80) :
    (joinWords run cs).map Char.toLower = (cs.filter Char.isAlphanum).map Char.toLower := by
  induction cs generalizing run with
  | nil => rw [joinWords, tailForm_ascii hrun]; rfl
  | cons c cs ih =>
      rw [List.forall_mem_cons] at hcs
      rw [joinWords]
      split
      · rename_i hc
        have hlower : (if run.isEmpty then c else c.toUpper).toLower = c.toLower := by
          split
          · rfl
          · exact Char.toLower_toUpper_eq_toLower c
        rw [List.map_cons, hlower, ih (List.forall_mem_nil _) hcs.2, List.filter_cons_of_pos hc,
          List.map_cons]
      · rename_i hc
        have hsep : isSeparator c = true := by simpa [isSeparator] using hc
        rw [ih (List.forall_mem_cons.mpr ⟨⟨hsep, hcs.1⟩, hrun⟩) hcs.2, List.filter_cons_of_neg hc]

theorem joinWords_of_letters {cs : List Char} (h : ∀ c ∈ cs, c.isAlphanum = true) :
    joinWords [] cs = cs := by
  induction cs with
  | nil => rfl
  | cons c cs ih =>
      rw [List.forall_mem_cons] at h
      rw [joinWords, if_pos h.1, ih h.2]
      rfl

theorem map_toLower_modifyHead (cs : List Char) :
    (cs.modifyHead Char.toLower).map Char.toLower = cs.map Char.toLower := by
  cases cs <;> simp

theorem isAlphanum_of_map_toLower {cs ds : List Char} (h : cs.map Char.toLower = ds.map Char.toLower)
    (hds : ∀ d ∈ ds, d.isAlphanum = true) : ∀ c ∈ cs, c.isAlphanum = true := by
  intro c hc
  have hmem : c.toLower ∈ ds.map Char.toLower := h ▸ List.mem_map_of_mem hc
  obtain ⟨d, hd, heq⟩ := List.mem_map.mp hmem
  rw [← isAlphanum_toLower, ← heq, isAlphanum_toLower]
  exact hds d hd

/-- Of an ASCII text in camel case there are the letters and digits and nothing else, in their order and
but for their case. It begins with no capital, and is its own camel case. -/
theorem camelCase_ascii {s : String} (h : ∀ c ∈ s.toList, c.toNat < 0x80) :
    (∀ c ∈ (camelCase s).toList, c.isAlphanum = true) ∧
    (camelCase s).toList.map Char.toLower = (s.toList.filter Char.isAlphanum).map Char.toLower ∧
    (∀ c, (camelCase s).toList.head? = some c → c.isUpper = false) ∧
    camelCase (camelCase s) = camelCase s := by
  have hcase : (camelCase s).toList.map Char.toLower =
      (s.toList.filter Char.isAlphanum).map Char.toLower := by
    rw [camelCase_toList, map_toLower_modifyHead, joinWords_letters (List.forall_mem_nil _) h]
  have hletters : ∀ c ∈ (camelCase s).toList, c.isAlphanum = true :=
    isAlphanum_of_map_toLower hcase fun _ => List.of_mem_filter
  refine ⟨hletters, hcase, fun c hc => ?_, ?_⟩
  · rw [camelCase_toList, List.head?_modifyHead] at hc
    obtain ⟨d, -, rfl⟩ := Option.map_eq_some_iff.mp hc
    exact Char.isUpper_toLower_eq_false d
  · have hagain : (camelCase s).toList.modifyHead Char.toLower = (camelCase s).toList := by
      rw [camelCase_toList]
      cases joinWords [] s.toList <;> simp
    rw [← String.toList_inj, camelCase_toList (camelCase s), joinWords_of_letters hletters, hagain]

theorem camelCase_ascii_title :
    let s := "--Baseline \n\n calculation\n(2nd draft) -\n"
    (∀ c ∈ s.toList, c.toNat < 0x80) ∧ camelCase s = "baselineCalculation2ndDraft" ∧
      (∀ c ∈ (camelCase s).toList, c.isAlphanum = true) ∧
      (camelCase s).toList.map Char.toLower = (s.toList.filter Char.isAlphanum).map Char.toLower ∧
      (∀ c, (camelCase s).toList.head? = some c → c.isUpper = false) ∧
      camelCase (camelCase s) = camelCase s := by
  intro s
  have hs : ∀ c ∈ s.toList, c.toNat < 0x80 := by simp [s]
  exact ⟨hs, by decide +kernel, camelCase_ascii hs⟩

end GuidedJourney.Text
