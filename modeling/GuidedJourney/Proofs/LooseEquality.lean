import GuidedJourney.Proofs.NumeralText
import GuidedJourney.Proofs.RuleFaults
import GuidedJourney.Proofs.ValueEquality

namespace GuidedJourney.Value

open Binary64

theorem isBlank_iff {v : Value} : v.isBlank = true ↔ v = .null ∨ v = .str "" := by
  cases v with
  | null => simp [isBlank]
  | str s => simp [isBlank]
  | _ => simp [isBlank]

def sameReadings : Option Binary64 → Option Binary64 → Bool
  | some x, some y => x.same y
  | _, _ => false

theorem sameReadings_comm (x y : Option Binary64) : sameReadings x y = sameReadings y x := by
  cases x with
  | none => cases y <;> rfl
  | some x =>
      cases y with
      | none => rfl
      | some y => exact Binary64.same_comm x y

theorem sameReadings_none (x : Option Binary64) : sameReadings x none = false := by
  cases x <;> rfl

theorem equalAsNumbers_ok {v w : Value} {x y : Option Binary64} (hv : v.number? = .ok x)
    (hw : w.number? = .ok y) : v.equalAsNumbers w = .ok (sameReadings x y) := by
  unfold equalAsNumbers
  rw [hv, hw]
  rfl

theorem equalAsNumbers_comm (v w : Value) : v.equalAsNumbers w = w.equalAsNumbers v := by
  -- Which operand is read first does not show, as reading has only one fault.
  cases hv : v.number? with
  | error f =>
      obtain ⟨rfl, -⟩ := number_error.mp hv
      rw [equalAsNumbers_error.mpr (.inl hv)]
      cases hw : w.number? with
      | error f =>
          obtain ⟨rfl, -⟩ := number_error.mp hw
          exact (equalAsNumbers_error.mpr (.inl hw)).symm
      | ok y => exact (equalAsNumbers_error.mpr (.inr ⟨y, hw, hv⟩)).symm
  | ok x =>
      cases hw : w.number? with
      | error f =>
          rw [equalAsNumbers_error.mpr (.inl hw), equalAsNumbers_error.mpr (.inr ⟨x, hv, hw⟩)]
      | ok y =>
          rw [equalAsNumbers_ok hv hw, equalAsNumbers_ok hw hv, sameReadings_comm]

theorem looselyEquals_swap {v w : Value} {room : Nat} (h : same room v w = same room w v) :
    v.looselyEquals w room = w.looselyEquals v room := by
  unfold looselyEquals
  rw [Bool.or_comm, Bool.and_comm, h, bne_comm, equalAsNumbers_comm]

theorem looselyEquals_comm {v w : Value} {room : Nat} (hv : v.IsJson) (hw : w.IsJson)
    (h : v.fits room = true ∨ w.fits room = true) : v.looselyEquals w room = w.looselyEquals v room :=
  looselyEquals_swap (same_comm hv hw h)

theorem looselyEquals_deep {v w : Value} {room : Nat} (hblank : (v.isBlank || w.isBlank) = false)
    (h : same room v w = .error .tooDeep) : v.looselyEquals w room = .error .tooDeep := by
  unfold looselyEquals
  rw [hblank, h]
  rfl

theorem looselyEquals_agree {v w : Value} {room : Nat} (hv : v.IsJson) (hw : w.IsJson) {e e' : Bool}
    (he : v.looselyEquals w room = .ok e) (he' : w.looselyEquals v room = .ok e') : e = e' := by
  have hanswer : v.looselyEquals w room = w.looselyEquals v room := by
    cases hblank : v.isBlank || w.isBlank with
    | true =>
        unfold looselyEquals
        rw [Bool.or_comm w.isBlank, hblank, Bool.and_comm, if_pos rfl, if_pos rfl]
    | false =>
        have hsame : ∃ b, same room v w = .ok b := by
          cases hs : same room v w with
          | ok b => exact ⟨b, rfl⟩
          | error f =>
              obtain rfl := same_error hs
              rw [looselyEquals_deep hblank hs] at he
              cases he
        have hsame' : ∃ b, same room w v = .ok b := by
          cases hs : same room w v with
          | ok b => exact ⟨b, rfl⟩
          | error f =>
              obtain rfl := same_error hs
              rw [looselyEquals_deep (Bool.or_comm _ _ ▸ hblank) hs] at he'
              cases he'
        obtain ⟨b, hb⟩ := hsame
        obtain ⟨b', hb'⟩ := hsame'
        obtain rfl := same_agree hv hw hb hb'
        exact looselyEquals_swap (hb.trans hb'.symm)
  rw [he, he'] at hanswer
  exact Except.ok.inj hanswer

theorem looselyEquals_blank {v : Value} (h : v.isBlank = true) (w : Value) (room : Nat) :
    v.looselyEquals w room = .ok w.isBlank := by
  rw [looselyEquals, h, Bool.true_or, Bool.true_and]
  rfl

theorem same_text (room : Nat) (s : String) (v : Value) :
    same room (.str s) v = .ok (sameScalar (.str s) v) := by
  cases room <;> rfl

theorem looselyEquals_texts {s : String} (hs : (Value.str s).isBlank = false) (t : String) (room : Nat) :
    (Value.str s).looselyEquals (.str t) room = .ok (s == t) := by
  have hboth : ((Value.str s).isText != (Value.str t).isText) = false := rfl
  rw [looselyEquals, hs, same_text, hboth, Bool.false_or, Bool.false_and]
  change (if (Value.str t).isBlank then _ else _) = _
  cases ht : (Value.str t).isBlank with
  | true =>
      have hne : (s == t) = false := by
        refine beq_eq_false_iff_ne.mpr ?_
        rintro rfl
        rw [hs] at ht
        cases ht
      rw [hne]
      rfl
  | false =>
      change (Except.ok (s == t) >>= fun e => _) = _
      cases s == t <;> rfl

theorem looselyEquals_text {s : String} (hs : (Value.str s).isBlank = false) {v : Value}
    (hv : v.isBlank = false) (htext : v.isText = false) (room : Nat) :
    (Value.str s).looselyEquals v room = (Value.str s).equalAsNumbers v := by
  rw [looselyEquals, hs, hv, Bool.false_or, if_neg Bool.false_ne_true, same_text]
  cases v with
  | str t => cases htext
  | _ => rfl

theorem looselyEquals_bool (b : Bool) (s : String) (room : Nat) :
    (Value.bool b).looselyEquals (.str s) room = .ok false := by
  have hfits : fits room (.bool b) = true := by cases room <;> rfl
  rw [looselyEquals_comm (.bool b) (.str s) (.inl hfits)]
  cases hs : (Value.str s).isBlank with
  | true => exact looselyEquals_blank hs (.bool b) room
  | false =>
      have hread : (Value.str s).number? =
        .ok (if Text.isBlankText s then none else ofNumeral? s) := rfl
      rw [looselyEquals_text hs rfl rfl room, equalAsNumbers_ok hread rfl, sameReadings_none]

/-- A text that holds no number is equal only to itself, apart from blanks. -/
theorem looselyEquals_word {s : String} (hs : (Value.str s).number? = .ok none) {v : Value}
    (hv : v.isBlank = false) (room : Nat) : (Value.str s).looselyEquals v room = .ok true ↔ v = .str s := by
  cases hblank : (Value.str s).isBlank with
  | true =>
      rw [looselyEquals_blank hblank, hv]
      refine iff_of_false nofun ?_
      rintro rfl
      rw [hblank] at hv
      cases hv
  | false =>
      cases htext : v.isText with
      | true =>
          cases v with
          | str t => rw [looselyEquals_texts hblank, Except.ok.injEq, beq_iff_eq, Value.str.injEq, eq_comm]
          | _ => cases htext
      | false =>
          rw [looselyEquals_text hblank hv htext]
          refine iff_of_false (fun h => ?_) (by rintro rfl; cases htext)
          cases hread : v.number? with
          | ok y =>
              rw [equalAsNumbers_ok hs hread, sameReadings_comm, sameReadings_none] at h
              cases h
          | error f =>
              rw [equalAsNumbers_error.mpr (.inr ⟨none, hs, hread⟩)] at h
              cases h

/-- The laws of loose equality for values of JSON documents, with room on the stack for so many levels. It is
symmetric, in its faults too, if one of the values is nested in no more levels than that. Otherwise one order
may fail by being too deep where the other comes to an answer, but two answers are the same, and any other
fault is that of both orders. Null and the empty text are equal to each other and to nothing else; a truth
value is equal to no text; and a text that holds no number is equal to nothing but itself. -/
theorem looselyEquals_symmetric {v w : Value} (hv : v.IsJson) (hw : w.IsJson) (room : Nat) :
    (v.fits room = true ∨ w.fits room = true → v.looselyEquals w room = w.looselyEquals v room) ∧
    (∀ e e', v.looselyEquals w room = .ok e → w.looselyEquals v room = .ok e' → e = e') ∧
    (∀ f, v.looselyEquals w room = .error f → f ≠ .tooDeep → w.looselyEquals v room = .error f) ∧
    (v = .null ∨ v = .str "" →
      ∃ e, v.looselyEquals w room = .ok e ∧ (e = true ↔ w = .null ∨ w = .str "")) ∧
    (∀ b s, v = .bool b → w = .str s → v.looselyEquals w room = .ok false) ∧
    (∀ s, v = .str s → (Value.str s).number? = .ok none → w ≠ .null → w ≠ .str "" →
      (v.looselyEquals w room = .ok true ↔ w = .str s)) := by
  refine ⟨looselyEquals_comm hv hw, fun e e' => looselyEquals_agree hv hw, fun f h hf => ?_,
    fun h => ?_, ?_, ?_⟩
  · rcases looselyEquals_error h with rfl | ⟨rfl, hclash⟩
    · exact absurd rfl hf
    · exact hclash.symm.looselyEquals room
  · exact ⟨w.isBlank, looselyEquals_blank (isBlank_iff.mpr h) w room, isBlank_iff⟩
  · rintro b s rfl rfl
    exact looselyEquals_bool b s room
  · rintro s rfl hs hnull hempty
    refine looselyEquals_word hs (Bool.eq_false_iff.mpr fun h => ?_) room
    exact (isBlank_iff.mp h).elim hnull hempty

theorem looselyEquals_symmetric_pair :
    let v : Value := .obj [("sizes", .list [.int 1, .bool true]), ("note", .null)]
    let w : Value := .obj [("note", .null), ("sizes", .list [.bool true, .num (.finite false 1 0)])]
    v.IsJson ∧ w.IsJson ∧ v.fits stackRoom = true ∧
      v.looselyEquals w = .ok true ∧ w.looselyEquals v = .ok true ∧
      (∃ e, Value.null.looselyEquals (.bool false) = .ok e ∧ e = false) ∧
      (Value.bool true).looselyEquals (.str "true") = .ok false ∧
      (Value.str "one").number? = .ok none ∧ (Value.str "one").looselyEquals (.int 1) ≠ .ok true := by
  intro v w
  have hv : v.IsJson := by
    refine .obj (by decide) ?_
    simp only [List.forall_mem_cons]
    refine ⟨.list ?_, .null, nofun⟩
    simp only [List.forall_mem_cons]
    exact ⟨.int 1, .bool true, nofun⟩
  have hw : w.IsJson := by
    refine .obj (by decide) ?_
    simp only [List.forall_mem_cons]
    refine ⟨.null, .list ?_, nofun⟩
    simp only [List.forall_mem_cons]
    exact ⟨.bool true, .num _, nofun⟩
  have hfits : v.fits stackRoom = true := rfl
  have hequal : v.looselyEquals w = .ok true := rfl
  have hunread : (Value.str "one").number? = .ok none := by decide +kernel
  obtain ⟨hcomm, -⟩ := looselyEquals_symmetric hv hw stackRoom
  obtain ⟨-, -, -, hblank, -⟩ := looselyEquals_symmetric .null (.bool false) stackRoom
  obtain ⟨-, -, -, -, hbool, -⟩ := looselyEquals_symmetric (.bool true) (.str "true") stackRoom
  obtain ⟨-, -, -, -, -, hword⟩ := looselyEquals_symmetric (.str "one") (.int 1) stackRoom
  obtain ⟨e, he, hiff⟩ := hblank (.inl rfl)
  refine ⟨hv, hw, hfits, hequal, (hcomm (.inl hfits)).symm.trans hequal, ⟨e, he, ?_⟩, hbool _ _ rfl rfl,
    hunread, fun h => ?_⟩
  · exact Bool.eq_false_iff.mpr fun h => nomatch hiff.mp h
  · cases (hword "one" rfl hunread nofun nofun).mp h

/-- The fields of the object that stands first are gone through in their order: of two objects that differ in
one field and are too deep to be compared in the other, one order comes to an answer. -/
theorem looselyEquals_lopsided : ¬ ∀ v w : Value, v.IsJson → w.IsJson →
    v.looselyEquals w = w.looselyEquals v := by
  intro h
  let deep : Value := nest stackRoom (.int 1)
  let v : Value := .obj [("width", .int 1), ("height", deep)]
  let w : Value := .obj [("height", deep), ("width", .int 2)]
  have hdeep : deep.IsJson := .nest (.int 1) stackRoom
  have hv : v.IsJson := by
    refine .obj (by decide) ?_
    simp only [List.forall_mem_cons]
    exact ⟨.int 1, hdeep, nofun⟩
  have hw : w.IsJson := by
    refine .obj (by decide) ?_
    simp only [List.forall_mem_cons]
    exact ⟨hdeep, .int 2, nofun⟩
  have hfails : same 959 deep deep = .error .tooDeep := same_nest (by decide) _ _
  have hlength : [("width", Value.int 1), ("height", deep)].length =
    [("height", deep), ("width", Value.int 2)].length := rfl
  have hvw : same (959 + 1) v w = .ok false := by
    have hwidth : Fields.find? [("height", deep), ("width", .int 2)] "width" = some (.int 2) := rfl
    have hdiffer : same 959 (.int 2) (.int 1) = .ok false := rfl
    rw [same_objects, if_pos hlength, sameFields_cons, hwidth]
    dsimp only
    rw [hdiffer]
    rfl
  have hwv : same (959 + 1) w v = .error .tooDeep := by
    have hheight : Fields.find? [("width", .int 1), ("height", deep)] "height" = some deep := rfl
    rw [same_objects, if_pos hlength.symm, sameFields_cons, hheight]
    dsimp only
    rw [hfails]
    rfl
  have hanswer : v.looselyEquals w (959 + 1) = .ok false := by
    rw [looselyEquals, hvw]
    rfl
  have hcomm : v.looselyEquals w (959 + 1) = w.looselyEquals v (959 + 1) := h v w hv hw
  rw [hanswer, looselyEquals_deep rfl hwv] at hcomm
  cases hcomm

theorem isBlank_toString (n : Int) : (Value.str (toString n)).isBlank = false := by
  refine Bool.eq_false_iff.mpr fun h => ?_
  have hempty : toString n = "" := String.isEmpty_iff.mp h
  have hchars := toString_chars n
  rw [hempty] at hchars
  exact Nat.toDigits_ne_nil (List.append_eq_nil_iff.mp hchars.symm).2

theorem intNumber_ok {n : Int} (h : n.natAbs < overflow) : intNumber n = .ok (ofInt n) := by
  unfold intNumber
  split
  · rename_i s hs
    exact absurd ((ofInt_infinite_iff n).mp ⟨s, hs⟩) (Nat.not_le_of_lt h)
  · rfl

/-- The decimal text of an integer beside an integer: both are rounded to 53 binary digits. -/
theorem looselyEquals_numeral (m n : Int) : (Value.str (toString m)).looselyEquals (.int n) =
    if overflow ≤ n.natAbs then .error .tooLarge
    else .ok (decide (nearestInt m = nearestInt n)) := by
  rw [looselyEquals_text (isBlank_toString m) rfl rfl stackRoom]
  split
  · rename_i hn
    have hlarge : (Value.int n).number? = .error .tooLarge := number_error.mpr ⟨rfl, n, rfl, hn⟩
    exact equalAsNumbers_error.mpr (.inr ⟨_, number_toString m, hlarge⟩)
  · rename_i hn
    have hread : (Value.int n).number? = .ok (some (ofInt n)) := by
      rw [number_int, intNumber_ok (Nat.not_le.mp hn)]
      rfl
    rw [equalAsNumbers_ok (number_toString m) hread]
    exact congrArg Except.ok (ofInt_same m (Nat.not_le.mp hn))

/-- An integer beside the decimal text of an integer, whichever stands first: the comparison fails if the
integer is too large for a 64-bit number. Otherwise an integer is equal to its own text, and if one of the
two has at most 53 binary digits, to no other; larger integers are equal to the texts of just those integers
that are rounded to the same 53 digits, which may differ in what comes after. -/
theorem looselyEquals_rounded (m n : Int) {v w : Value}
    (h : v = .str (toString m) ∧ w = .int n ∨ v = .int n ∧ w = .str (toString m)) :
    (overflow ≤ n.natAbs → v.looselyEquals w = .error .tooLarge) ∧
    (n.natAbs < overflow →
      (∃ e, v.looselyEquals w = .ok e ∧ (e = true ↔ nearestInt m = nearestInt n)) ∧
      (m = n → v.looselyEquals w = .ok true) ∧
      (m.natAbs < 2 ^ 53 ∨ n.natAbs < 2 ^ 53 → m ≠ n → v.looselyEquals w = .ok false) ∧
      (v.looselyEquals w = .ok true → 2 ^ 53 * (m - n).natAbs ≤ m.natAbs + n.natAbs)) := by
  have hvalue : v.looselyEquals w = if overflow ≤ n.natAbs then .error .tooLarge
      else .ok (decide (nearestInt m = nearestInt n)) := by
    rcases h with ⟨rfl, rfl⟩ | ⟨rfl, rfl⟩
    · exact looselyEquals_numeral m n
    · rw [looselyEquals_comm (.int n) (.str _) (.inl rfl), looselyEquals_numeral]
  refine ⟨fun hn => by rw [hvalue, if_pos hn], fun hn => ?_⟩
  rw [if_neg (Nat.not_le_of_lt hn)] at hvalue
  rw [hvalue]
  refine ⟨⟨_, rfl, decide_eq_true_iff⟩, ?_, fun hsmall hne => ?_, fun he => ?_⟩
  · rintro rfl
    rw [decide_eq_true rfl]
  · rw [decide_eq_false fun he => hne ((nearestInt_inj hsmall).mp he)]
  · exact nearestInt_close (of_decide_eq_true (Except.ok.inj he))

/-- On both sides of the first integer that takes 54 digits, and where there are no 64-bit numbers. -/
theorem looselyEquals_rounded_edge :
    let m : Int := 2 ^ 53 + 1
    let n : Int := 2 ^ 53 - 1
    n.natAbs < overflow ∧ n.natAbs < 2 ^ 53 ∧ m ≠ n ∧
      (Value.int n).looselyEquals (.str (toString m)) = .ok false ∧
      overflow ≤ (2 ^ 1024 : Int).natAbs ∧
      (Value.str (toString m)).looselyEquals (.int (2 ^ 1024)) = .error .tooLarge := by
  intro m n
  have hn : n.natAbs < overflow := by decide +kernel
  have hlarge : overflow ≤ (2 ^ 1024 : Int).natAbs := by decide +kernel
  obtain ⟨-, hfits⟩ := looselyEquals_rounded m n (.inr ⟨rfl, rfl⟩)
  obtain ⟨-, -, hapart, -⟩ := hfits hn
  obtain ⟨hfails, -⟩ := looselyEquals_rounded m (2 ^ 1024) (.inl ⟨rfl, rfl⟩)
  exact ⟨hn, by decide, by decide, hapart (.inr (by decide)) (by decide), hlarge, hfails hlarge⟩

/-- A text can be equal to an integer that is not the one that it stands for. -/
theorem numeral_mistaken : ¬ ∀ m n : Int,
    ((Value.str (toString m)).looselyEquals (.int n) = .ok true ↔ m = n) ∧
    ((Value.int n).looselyEquals (.str (toString m)) = .ok true ↔ m = n) := by
  intro h
  have hequal : (Value.str (toString (2 ^ 53 + 1 : Int))).looselyEquals (.int (2 ^ 53)) = .ok true := by
    have hn : ¬ overflow ≤ (2 ^ 53 : Int).natAbs := by decide +kernel
    have hround : nearestInt (2 ^ 53 + 1) = nearestInt (2 ^ 53) := by decide
    rw [looselyEquals_numeral, if_neg hn, decide_eq_true hround]
  exact absurd ((h (2 ^ 53 + 1) (2 ^ 53)).1.mp hequal) (by decide)

end GuidedJourney.Value
