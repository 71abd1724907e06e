import GuidedJourney.Proofs.NumberRange
import GuidedJourney.Proofs.ValueEquality

namespace GuidedJourney

namespace Value

/-- A text that is not empty beside an integer that is too large to be a 64-bit number. -/
inductive Clash : Value → Value → Prop
  | text (s : String) (n : Int) (hs : s.isEmpty = false) (hn : Binary64.overflow ≤ n.natAbs) :
      Clash (.str s) (.int n)
  | integer (n : Int) (s : String) (hs : s.isEmpty = false) (hn : Binary64.overflow ≤ n.natAbs) :
      Clash (.int n) (.str s)

theorem Clash.symm {v w : Value} (h : v.Clash w) : w.Clash v := by
  cases h with
  | text s n hs hn => exact .integer n s hs hn
  | integer n s hs hn => exact .text s n hs hn

theorem equalAsNumbers_error {v w : Value} {f : Fault} : v.equalAsNumbers w = .error f ↔
    v.number? = .error f ∨ ∃ x, v.number? = .ok x ∧ w.number? = .error f := by
  unfold equalAsNumbers
  rw [bind_error_iff]
  refine or_congr_right (exists_congr fun x => and_congr_right fun _ => ?_)
  exact bind_error_iff.trans (or_iff_left (by rintro ⟨y, -, h⟩; cases h))

theorem looselyEquals_error {v w : Value} {room : Nat} {f : Fault}
    (h : v.looselyEquals w room = .error f) : f = .tooDeep ∨ f = .tooLarge ∧ v.Clash w := by
  unfold looselyEquals at h
  split at h
  · cases h
  · rename_i hblank
    rcases bind_error_iff.mp h with h | ⟨e, -, h⟩
    · exact .inl (same_error h)
    · split at h
      · cases h
      · split at h
        · rename_i htext
          rcases equalAsNumbers_error.mp h with hv | ⟨x, -, hw⟩
          · obtain ⟨rfl, n, rfl, hn⟩ := number_error.mp hv
            refine .inr ⟨rfl, ?_⟩
            cases w with
            | str s => exact .integer n s (by simpa [isBlank] using hblank) hn
            | _ => simp [isText] at htext
          · obtain ⟨rfl, n, rfl, hn⟩ := number_error.mp hw
            refine .inr ⟨rfl, ?_⟩
            cases v with
            | str s => exact .text s n (by simpa [isBlank] using hblank) hn
            | _ => simp [isText] at htext
        · cases h

theorem Clash.looselyEquals {v w : Value} (h : v.Clash w) (room : Nat) :
    v.looselyEquals w room = .error .tooLarge := by
  have hbig : ∀ n : Int, Binary64.overflow ≤ n.natAbs → number? (.int n) = .error .tooLarge :=
    fun n hn => number_error.mpr ⟨rfl, n, rfl, hn⟩
  cases h with
  | text s n hs hn =>
      have hsame : same room (.str s) (.int n) = .ok false := by cases room <;> rfl
      have hread : equalAsNumbers (.str s) (.int n) = .error .tooLarge :=
        equalAsNumbers_error.mpr (.inr ⟨_, rfl, hbig n hn⟩)
      simp [Value.looselyEquals, isBlank, hs, hsame, isText, hread, bind, Except.bind]
  | integer n s hs hn =>
      have hsame : same room (.int n) (.str s) = .ok false := by cases room <;> rfl
      have hread : equalAsNumbers (.int n) (.str s) = .error .tooLarge :=
        equalAsNumbers_error.mpr (.inl (hbig n hn))
      simp [Value.looselyEquals, isBlank, hs, hsame, isText, hread, bind, Except.bind]

end Value

theorem Reference.resolve_fails {context : Fields} {ref : Reference} :
    ref.resolve context ≠ .error (.fault .tooLarge) := by
  intro h
  have hget : FailsOnly .badNumeral (Path.get context ref.path ref.default) := by
    unfold Path.get
    split
    · exact (Path.find_fails _ _).map _
    · exact .ok _
  unfold resolve at h
  cases hr : Path.get context ref.path ref.default with
  | ok v => rw [hr] at h; cases h
  | error f =>
      rw [hr] at h
      cases h
      cases hget _ hr

theorem Rule.nested_add {α : Type} (calls room : Nat) (x : Nat → Except RuleFault α) :
    Rule.nested calls (room + calls) x = x room := by
  rw [nested, if_neg (Nat.not_lt.mpr (Nat.le_add_left calls room)), Nat.add_sub_cancel]

theorem Rule.nested_error {α : Type} {calls room : Nat} {x : Nat → Except RuleFault α} {f : RuleFault}
    (hf : f ≠ .fault .tooDeep) (h : Rule.nested calls room x = .error f) :
    ∃ left, room = left + calls ∧ x left = .error f := by
  unfold nested at h
  split at h
  · exact absurd (Except.error.inj h).symm hf
  · rename_i hroom
    exact ⟨room - calls, (Nat.sub_add_cancel (Nat.not_lt.mp hroom)).symm, h⟩

variable {context : Fields}

mutual

/-- The evaluation of a rule comes to a clash: it goes from left to right, with as many calls more on the
stack as lead to a rule, and of the rules that are joined, only to those before which the others leave the
matter open. -/
inductive Rule.Overruns (context : Fields) : Nat → Rule → Prop
  | left {room : Nat} (negated : Bool) {x : Operand} (y : Operand) (h : x.Overruns context room) :
      Rule.Overruns context room (.equal negated x y)
  | right {room : Nat} (negated : Bool) {x y : Operand} {v : Value}
      (hx : x.resolve context room = .ok v) (h : y.Overruns context room) :
      Rule.Overruns context room (.equal negated x y)
  | equal {room : Nat} (negated : Bool) {x y : Operand} {v w : Value}
      (hx : x.resolve context (room + 1) = .ok v) (hy : y.resolve context (room + 1) = .ok w)
      (h : v.Clash w) : Rule.Overruns context (room + 1) (.equal negated x y)
  | all {room : Nat} {before : List Rule} {r : Rule} (after : List Rule)
      (hbefore : ∀ b ∈ before, b.truth context room = .ok true) (h : r.Overruns context room) :
      Rule.Overruns context (room + 3) (.all (before ++ r :: after))
  | any {room : Nat} {before : List Rule} {r : Rule} (after : List Rule)
      (hbefore : ∀ b ∈ before, b.truth context room = .ok false) (h : r.Overruns context room) :
      Rule.Overruns context (room + 3) (.any (before ++ r :: after))

inductive Operand.Overruns (context : Fields) : Nat → Operand → Prop
  | list {room : Nat} {before : List Operand} {x : Operand} (after : List Operand)
      (hbefore : ∀ b ∈ before, ∃ v, b.resolve context room = .ok v) (h : x.Overruns context room) :
      Operand.Overruns context (room + 2) (.list (before ++ x :: after))
  | rule {room : Nat} {r : Rule} (h : r.Overruns context room) :
      Operand.Overruns context (room + 2) (.rule r)

end

variable {room : Nat}

theorem Rule.allTrue_cons (r : Rule) (rs : List Rule) : Rule.allTrue context room (r :: rs) =
    r.truth context room >>= fun b => if b then Rule.allTrue context room rs else .ok false := by
  rw [allTrue]
  rfl

theorem Rule.anyTrue_cons (r : Rule) (rs : List Rule) : Rule.anyTrue context room (r :: rs) =
    r.truth context room >>= fun b => if b then .ok true else Rule.anyTrue context room rs := by
  rw [anyTrue]
  rfl

theorem Operand.resolveAll_cons (x : Operand) (xs : List Operand) :
    Operand.resolveAll context room (x :: xs) =
      x.resolve context room >>= fun v => (Operand.resolveAll context room xs).map (v :: ·) := by
  rw [resolveAll]
  rfl

def Value.compare (v w : Value) (room : Nat) : Except RuleFault Bool :=
  Rule.nested 1 room fun room => (v.looselyEquals w room).mapError .fault

theorem Rule.truth_equal (negated : Bool) (x y : Operand) :
    (Rule.equal negated x y).truth context room = x.resolve context room >>= fun v =>
      y.resolve context room >>= fun w => (v.compare w room).map (· != negated) := by
  rw [truth]
  rfl

theorem Value.Clash.compare {v w : Value} (h : v.Clash w) (room : Nat) :
    v.compare w (room + 1) = .error (.fault .tooLarge) := by
  rw [Value.compare, Rule.nested_add 1 room, h.looselyEquals]
  rfl

theorem Value.compare_error {v w : Value} {f : RuleFault} (h : v.compare w room = .error f) :
    f = .fault .tooDeep ∨ f = .fault .tooLarge ∧ ∃ left, room = left + 1 ∧ v.Clash w := by
  by_cases hf : f = .fault .tooDeep
  · exact .inl hf
  · obtain ⟨left, rfl, hcompared⟩ := Rule.nested_error hf h
    cases he : v.looselyEquals w left with
    | ok e =>
        rw [he] at hcompared
        cases hcompared
    | error cause =>
        rw [he] at hcompared
        obtain rfl := Except.error.inj hcompared
        rcases looselyEquals_error he with rfl | ⟨rfl, hclash⟩
        · exact absurd rfl hf
        · exact .inr ⟨rfl, left, rfl, hclash⟩

theorem Rule.allTrue_append {before : List Rule} (h : ∀ b ∈ before, b.truth context room = .ok true)
    (rest : List Rule) : Rule.allTrue context room (before ++ rest) = Rule.allTrue context room rest := by
  induction before with
  | nil => rfl
  | cons b before ih =>
      rw [List.forall_mem_cons] at h
      rw [List.cons_append, allTrue_cons, h.1]
      exact ih h.2

theorem Rule.anyTrue_append {before : List Rule} (h : ∀ b ∈ before, b.truth context room = .ok false)
    (rest : List Rule) : Rule.anyTrue context room (before ++ rest) = Rule.anyTrue context room rest := by
  induction before with
  | nil => rfl
  | cons b before ih =>
      rw [List.forall_mem_cons] at h
      rw [List.cons_append, anyTrue_cons, h.1]
      exact ih h.2

theorem Operand.resolveAll_append {before : List Operand}
    (h : ∀ b ∈ before, ∃ v, b.resolve context room = .ok v) {rest : List Operand} {f : RuleFault}
    (hrest : Operand.resolveAll context room rest = .error f) :
    Operand.resolveAll context room (before ++ rest) = .error f := by
  induction before with
  | nil => exact hrest
  | cons b before ih =>
      rw [List.forall_mem_cons] at h
      obtain ⟨v, hv⟩ := h.1
      rw [List.cons_append, resolveAll_cons, hv]
      exact map_error_iff.mpr (ih h.2)

mutual

theorem Rule.Overruns.truth {room : Nat} {r : Rule} :
    r.Overruns context room → r.truth context room = .error (.fault .tooLarge)
  | .left negated y h => by
      rw [Rule.truth_equal, h.resolve]
      rfl
  | .right negated hx h => by
      rw [Rule.truth_equal]
      exact bind_error_iff.mpr (.inr ⟨_, hx, bind_error_iff.mpr (.inl h.resolve)⟩)
  | .equal negated hx hy h => by
      rw [Rule.truth_equal, hx, hy]
      exact map_error_iff.mpr (h.compare _)
  | .all after hbefore h => by
      rw [Rule.truth, Rule.nested_add 3, Rule.allTrue_append hbefore, Rule.allTrue_cons, h.truth]
      rfl
  | .any after hbefore h => by
      rw [Rule.truth, Rule.nested_add 3, Rule.anyTrue_append hbefore, Rule.anyTrue_cons, h.truth]
      rfl

theorem Operand.Overruns.resolve {room : Nat} {x : Operand} :
    x.Overruns context room → x.resolve context room = .error (.fault .tooLarge)
  | .list after hbefore h => by
      rw [Operand.resolve, Rule.nested_add 2]
      refine map_error_iff.mpr (Operand.resolveAll_append hbefore ?_)
      rw [Operand.resolveAll_cons, h.resolve]
      rfl
  | .rule h => by
      rw [Operand.resolve, Rule.nested_add 2]
      exact map_error_iff.mpr h.truth

end

mutual

theorem Rule.overruns_of_truth : ∀ (room : Nat) (r : Rule),
    r.truth context room = .error (.fault .tooLarge) → r.Overruns context room
  | room, .literal v, h => by
      rw [Rule.truth] at h
      cases h
  | room, .reference ref, h => by
      rw [Rule.truth, map_error_iff] at h
      exact absurd h Reference.resolve_fails
  | room, .unknown operator, h => by
      rw [Rule.truth] at h
      cases h
  | room, .equal negated x y, h => by
      rw [Rule.truth_equal] at h
      rcases bind_error_iff.mp h with h | ⟨v, hx, h⟩
      · exact .left negated y (Operand.overruns_of_resolve room x h)
      · rcases bind_error_iff.mp h with h | ⟨w, hy, h⟩
        · exact .right negated hx (Operand.overruns_of_resolve room y h)
        · rcases Value.compare_error (map_error_iff.mp h) with hdeep | ⟨-, left, rfl, hclash⟩
          · cases hdeep
          · exact .equal negated hx hy hclash
  | room, .all rs, h => by
      rw [Rule.truth] at h
      obtain ⟨left, rfl, h⟩ := Rule.nested_error (by simp) h
      obtain ⟨before, r, after, rfl, hbefore, hr⟩ := Rule.overruns_of_allTrue left rs h
      exact .all after hbefore hr
  | room, .any rs, h => by
      rw [Rule.truth] at h
      obtain ⟨left, rfl, h⟩ := Rule.nested_error (by simp) h
      obtain ⟨before, r, after, rfl, hbefore, hr⟩ := Rule.overruns_of_anyTrue left rs h
      exact .any after hbefore hr

theorem Rule.overruns_of_allTrue : ∀ (room : Nat) (rs : List Rule),
    Rule.allTrue context room rs = .error (.fault .tooLarge) →
      ∃ before r after, rs = before ++ r :: after ∧
        (∀ b ∈ before, b.truth context room = .ok true) ∧ r.Overruns context room
  | room, [], h => by
      rw [Rule.allTrue] at h
      cases h
  | room, r :: rs, h => by
      rw [Rule.allTrue_cons] at h
      rcases bind_error_iff.mp h with h | ⟨b, hr, h⟩
      · exact ⟨[], r, rs, rfl, by simp, Rule.overruns_of_truth room r h⟩
      · cases b with
        | false => cases h
        | true =>
            obtain ⟨before, r', after, rfl, hbefore, hr'⟩ := Rule.overruns_of_allTrue room rs h
            exact ⟨r :: before, r', after, rfl, List.forall_mem_cons.mpr ⟨hr, hbefore⟩, hr'⟩

theorem Rule.overruns_of_anyTrue : ∀ (room : Nat) (rs : List Rule),
    Rule.anyTrue context room rs = .error (.fault .tooLarge) →
      ∃ before r after, rs = before ++ r :: after ∧
        (∀ b ∈ before, b.truth context room = .ok false) ∧ r.Overruns context room
  | room, [], h => by
      rw [Rule.anyTrue] at h
      cases h
  | room, r :: rs, h => by
      rw [Rule.anyTrue_cons] at h
      rcases bind_error_iff.mp h with h | ⟨b, hr, h⟩
      · exact ⟨[], r, rs, rfl, by simp, Rule.overruns_of_truth room r h⟩
      · cases b with
        | true => cases h
        | false =>
            obtain ⟨before, r', after, rfl, hbefore, hr'⟩ := Rule.overruns_of_anyTrue room rs h
            exact ⟨r :: before, r', after, rfl, List.forall_mem_cons.mpr ⟨hr, hbefore⟩, hr'⟩

theorem Operand.overruns_of_resolve : ∀ (room : Nat) (x : Operand),
    x.resolve context room = .error (.fault .tooLarge) → x.Overruns context room
  | room, .value v, h => by
      rw [Operand.resolve] at h
      cases h
  | room, .reference ref, h => by
      rw [Operand.resolve] at h
      exact absurd h Reference.resolve_fails
  | room, .list xs, h => by
      rw [Operand.resolve] at h
      obtain ⟨left, rfl, h⟩ := Rule.nested_error (by simp) h
      obtain ⟨before, x, after, rfl, hbefore, hx⟩ :=
        Operand.overruns_of_resolveAll left xs (map_error_iff.mp h)
      exact .list after hbefore hx
  | room, .rule r, h => by
      rw [Operand.resolve] at h
      obtain ⟨left, rfl, h⟩ := Rule.nested_error (by simp) h
      exact .rule (Rule.overruns_of_truth left r (map_error_iff.mp h))

theorem Operand.overruns_of_resolveAll : ∀ (room : Nat) (xs : List Operand),
    Operand.resolveAll context room xs = .error (.fault .tooLarge) → ∃ before x after,
      xs = before ++ x :: after ∧ (∀ b ∈ before, ∃ v, b.resolve context room = .ok v) ∧
        x.Overruns context room
  | room, [], h => by
      rw [Operand.resolveAll] at h
      cases h
  | room, x :: xs, h => by
      rw [Operand.resolveAll_cons] at h
      rcases bind_error_iff.mp h with h | ⟨v, hx, h⟩
      · exact ⟨[], x, xs, rfl, by simp, Operand.overruns_of_resolve room x h⟩
      · rw [map_error_iff] at h
        obtain ⟨before, x', after, rfl, hbefore, hx'⟩ := Operand.overruns_of_resolveAll room xs h
        exact ⟨x :: before, x', after, rfl, List.forall_mem_cons.mpr ⟨⟨v, hx⟩, hbefore⟩, hx'⟩

end

end GuidedJourney
