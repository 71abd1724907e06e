import GuidedJourney.Proofs.RuleFaults

namespace GuidedJourney

variable {context : Fields} {room : Nat}

inductive Junction where
  | conjunction
  | disjunction

namespace Junction

def operator : Junction → String
  | conjunction => "and"
  | disjunction => "or"

def rule : Junction → List Rule → Rule
  | conjunction => .all
  | disjunction => .any

end Junction

inductive Comparison where
  | equality
  | inequality

namespace Comparison

def operator : Comparison → String
  | equality => "=="
  | inequality => "!="

def negated : Comparison → Bool
  | equality => false
  | inequality => true

end Comparison

namespace Value

def operands : Value → List Value
  | .list xs => xs
  | v => [v]

/-- A node of a rule that is not understood: an object with an operator that is not known, or without
exactly one key. -/
inductive Strange : Value → Prop
  | operator {op : String} (arg : Value) (h : op ∉ ["var", "==", "!=", "and", "or"]) :
      Strange (.obj [(op, arg)])
  | keys {fields : Fields} (h : fields.length ≠ 1) : Strange (.obj fields)

end Value

mutual

/-- A place for a rule in a rule. -/
inductive RulePlace where
  | here
  /-- Among the rules that are joined. -/
  | joined (j : Junction) (before : List Value) (inner : RulePlace) (after : List Value)
  /-- The only rule that is joined, without a list around it. -/
  | alone (j : Junction) (inner : RulePlace)
  | left (c : Comparison) (inner : OperandPlace) (others : List Value)
  | right (c : Comparison) (first : Value) (inner : OperandPlace) (others : List Value)
  /-- The only operand of a comparison, without a list around it. -/
  | single (c : Comparison) (inner : RulePlace)

inductive OperandPlace where
  | rule (inner : RulePlace)
  | item (before : List Value) (inner : OperandPlace) (after : List Value)

end

mutual

def RulePlace.fill (v : Value) : RulePlace → Value
  | .here => v
  | .joined j before inner after => .obj [(j.operator, .list (before ++ inner.fill v :: after))]
  | .alone j inner => .obj [(j.operator, inner.fill v)]
  | .left c inner others => .obj [(c.operator, .list (inner.fill v :: others))]
  | .right c first inner others => .obj [(c.operator, .list (first :: inner.fill v :: others))]
  | .single c inner => .obj [(c.operator, inner.fill v)]

def OperandPlace.fill (v : Value) : OperandPlace → Value
  | .rule inner => inner.fill v
  | .item before inner after => .list (before ++ inner.fill v :: after)

end

theorem Rule.ofList_eq_map (vs : List Value) : Rule.ofList vs = vs.map Rule.ofValue := by
  induction vs with
  | nil => rfl
  | cons v vs ih => rw [ofList, ih, List.map_cons]

theorem Operand.ofList_eq_map (vs : List Value) : Operand.ofList vs = vs.map Operand.ofValue := by
  induction vs with
  | nil => rfl
  | cons v vs ih => rw [ofList, ih, List.map_cons]

theorem Rule.ofValue_junction (j : Junction) (arg : Value) :
    Rule.ofValue (.obj [(j.operator, arg)]) = j.rule (arg.operands.map Rule.ofValue) := by
  cases j with
  | conjunction =>
      cases arg with
      | list xs => exact congrArg Rule.all (Rule.ofList_eq_map xs)
      | _ => rfl
  | disjunction =>
      cases arg with
      | list xs => exact congrArg Rule.any (Rule.ofList_eq_map xs)
      | _ => rfl

theorem Rule.ofValue_comparison (c : Comparison) (arg : Value) :
    Rule.ofValue (.obj [(c.operator, arg)]) =
      .equal c.negated (Operand.first arg.operands) (Operand.second arg.operands) := by
  cases c <;> cases arg <;> rfl

theorem Operand.ofValue_junction (j : Junction) (arg : Value) :
    Operand.ofValue (.obj [(j.operator, arg)]) = .rule (Rule.ofValue (.obj [(j.operator, arg)])) := by
  cases j <;> cases arg <;> rfl

theorem Operand.ofValue_comparison (c : Comparison) (arg : Value) :
    Operand.ofValue (.obj [(c.operator, arg)]) = .rule (Rule.ofValue (.obj [(c.operator, arg)])) := by
  cases c <;> cases arg <;> rfl

theorem Value.Strange.fields {u : Value} (h : u.Strange) :
    ∃ fields op, u = .obj fields ∧ Rule.ofFields fields = .unknown op := by
  cases h with
  | @operator op arg h =>
      simp only [List.mem_cons, List.not_mem_nil, not_or] at h
      obtain ⟨hvar, heq, hne, hand, hor, -⟩ := h
      refine ⟨_, op, rfl, ?_⟩
      cases arg <;> simp [Rule.ofFields, hvar, heq, hne, hand, hor]
  | @keys fields h =>
      refine ⟨fields, unknownName (Fields.keys fields), rfl, ?_⟩
      match fields with
      | [] => rfl
      | [_] => exact absurd rfl h
      | (_, v) :: _ :: _ => cases v <;> rfl

theorem Value.Strange.rule {u : Value} (h : u.Strange) : ∃ op, Rule.ofValue u = .unknown op := by
  obtain ⟨fields, op, rfl, hop⟩ := h.fields
  exact ⟨op, hop⟩

theorem Value.Strange.operand {u : Value} (h : u.Strange) :
    ∃ op, Operand.ofValue u = .rule (.unknown op) := by
  obtain ⟨fields, op, rfl, hop⟩ := h.fields
  exact ⟨op, by rw [Operand.ofValue, hop]⟩

/-- A call that is one too many counts as false, as does an operator that is not known. -/
theorem Rule.nested_unknown {α : Type} (calls room : Nat) (op : String) :
    ∃ f, f ≠ .fault .tooLarge ∧
      (Rule.nested calls room fun _ => (.error (.unknownOperator op) : Except RuleFault α)) = .error f := by
  unfold nested
  split
  · exact ⟨.fault .tooDeep, by simp, rfl⟩
  · exact ⟨.unknownOperator op, by simp, rfl⟩

/-- What comes to `x` comes to `y`, or fails in a way that counts as false. -/
def Shields {α : Type} (x y : Except RuleFault α) : Prop :=
  x = y ∨ ∃ f, f ≠ .fault .tooLarge ∧ x = .error f

namespace Shields

variable {α β : Type} {x y : Except RuleFault α}

theorem refl (x : Except RuleFault α) : Shields x x := .inl rfl

theorem unknown (op : String) : Shields (.error (.unknownOperator op)) y := .inr ⟨_, by simp, rfl⟩

theorem bind {f g : α → Except RuleFault β} (h : Shields x y) (hf : ∀ a, Shields (f a) (g a)) :
    Shields (x >>= f) (y >>= g) := by
  rcases h with rfl | ⟨e, he, rfl⟩
  · cases x with
    | ok a => exact hf a
    | error e => exact .refl _
  · exact .inr ⟨e, he, rfl⟩

theorem map (h : Shields x y) (f : α → β) : Shields (x.map f) (y.map f) := by
  rcases h with rfl | ⟨e, he, rfl⟩
  · exact .refl _
  · exact .inr ⟨e, he, rfl⟩

theorem nested (calls room : Nat) {f g : Nat → Except RuleFault α} (h : ∀ n, Shields (f n) (g n)) :
    Shields (Rule.nested calls room f) (Rule.nested calls room g) := by
  unfold Rule.nested
  split
  · exact .refl _
  · exact h _

theorem nested_unknown (calls room : Nat) (op : String) :
    Shields (Rule.nested calls room fun _ => .error (.unknownOperator op)) y :=
  .inr (Rule.nested_unknown calls room op)

end Shields

theorem Rule.allTrue_shields (before : List Rule) {r r' : Rule} (after : List Rule)
    (h : Shields (r.truth context room) (r'.truth context room)) :
    Shields (Rule.allTrue context room (before ++ r :: after))
      (Rule.allTrue context room (before ++ r' :: after)) := by
  induction before with
  | nil =>
      rw [List.nil_append, List.nil_append, allTrue_cons, allTrue_cons]
      exact h.bind fun _ => .refl _
  | cons b before ih =>
      rw [List.cons_append, List.cons_append, allTrue_cons, allTrue_cons]
      refine Shields.bind (.refl _) fun holds => ?_
      cases holds with
      | true => exact ih
      | false => exact .refl _

theorem Rule.anyTrue_shields (before : List Rule) {r r' : Rule} (after : List Rule)
    (h : Shields (r.truth context room) (r'.truth context room)) :
    Shields (Rule.anyTrue context room (before ++ r :: after))
      (Rule.anyTrue context room (before ++ r' :: after)) := by
  induction before with
  | nil =>
      rw [List.nil_append, List.nil_append, anyTrue_cons, anyTrue_cons]
      exact h.bind fun _ => .refl _
  | cons b before ih =>
      rw [List.cons_append, List.cons_append, anyTrue_cons, anyTrue_cons]
      refine Shields.bind (.refl _) fun holds => ?_
      cases holds with
      | true => exact .refl _
      | false => exact ih

theorem Junction.rule_shields (j : Junction) (before : List Rule) {r r' : Rule} (after : List Rule)
    (h : ∀ room, Shields (r.truth context room) (r'.truth context room)) (room : Nat) :
    Shields ((j.rule (before ++ r :: after)).truth context room)
      ((j.rule (before ++ r' :: after)).truth context room) := by
  cases j with
  | conjunction =>
      rw [rule, Rule.truth, Rule.truth]
      exact .nested 3 room fun left => Rule.allTrue_shields before after (h left)
  | disjunction =>
      rw [rule, Rule.truth, Rule.truth]
      exact .nested 3 room fun left => Rule.anyTrue_shields before after (h left)

theorem Operand.resolveAll_shields (before : List Operand) {x x' : Operand} (after : List Operand)
    (h : Shields (x.resolve context room) (x'.resolve context room)) :
    Shields (Operand.resolveAll context room (before ++ x :: after))
      (Operand.resolveAll context room (before ++ x' :: after)) := by
  induction before with
  | nil =>
      rw [List.nil_append, List.nil_append, resolveAll_cons, resolveAll_cons]
      exact h.bind fun _ => .refl _
  | cons b before ih =>
      rw [List.cons_append, List.cons_append, resolveAll_cons, resolveAll_cons]
      exact Shields.bind (.refl _) fun v => ih.map _

theorem Rule.equal_shields (negated : Bool) {x x' y y' : Operand}
    (hx : Shields (x.resolve context room) (x'.resolve context room))
    (hy : Shields (y.resolve context room) (y'.resolve context room)) :
    Shields ((Rule.equal negated x y).truth context room) ((Rule.equal negated x' y').truth context room) := by
  rw [truth_equal, truth_equal]
  exact hx.bind fun v => hy.bind fun w => .refl _

namespace RulePlace

variable {u : Value}

theorem fill_cases (p : RulePlace) :
    p = .here ∨ ∀ v, (p.fill v).operands = [p.fill v] ∧
      Operand.ofValue (p.fill v) = .rule (Rule.ofValue (p.fill v)) := by
  cases p with
  | here => exact .inl rfl
  | joined | alone => exact .inr fun v => ⟨rfl, Operand.ofValue_junction _ _⟩
  | left | right | single => exact .inr fun v => ⟨rfl, Operand.ofValue_comparison _ _⟩

theorem resolve_shields (hu : u.Strange) (r : Value) {p : RulePlace}
    (h : ∀ room, Shields ((Rule.ofValue (p.fill u)).truth context room)
      ((Rule.ofValue (p.fill r)).truth context room)) (room : Nat) :
    Shields ((Operand.ofValue (p.fill u)).resolve context room)
      ((Operand.ofValue (p.fill r)).resolve context room) := by
  rcases p.fill_cases with rfl | hp
  · obtain ⟨op, hop⟩ := hu.operand
    rw [fill, hop, Operand.resolve]
    simp only [Rule.truth]
    exact .nested_unknown 2 room op
  · rw [(hp u).2, (hp r).2, Operand.resolve, Operand.resolve]
    exact .nested 2 room fun left => (h left).map _

theorem alone_shields (hu : u.Strange) (r : Value) (j : Junction) {p : RulePlace}
    (h : ∀ room, Shields ((Rule.ofValue (p.fill u)).truth context room)
      ((Rule.ofValue (p.fill r)).truth context room)) (room : Nat) :
    Shields ((Rule.ofValue ((alone j p).fill u)).truth context room)
      ((Rule.ofValue ((alone j p).fill r)).truth context room) := by
  rw [fill, fill, Rule.ofValue_junction, Rule.ofValue_junction]
  rcases p.fill_cases with rfl | hp
  · obtain ⟨fields, op, rfl, hop⟩ := hu.fields
    have hrules : (fill (.obj fields) .here).operands.map Rule.ofValue = [.unknown op] :=
      congrArg (fun rule => [rule]) hop
    rw [hrules]
    cases j with
    | conjunction =>
        rw [Junction.rule, Rule.truth, Rule.truth]
        refine .nested 3 room fun left => ?_
        rw [Rule.allTrue_cons, Rule.truth]
        exact .unknown op
    | disjunction =>
        rw [Junction.rule, Rule.truth, Rule.truth]
        refine .nested 3 room fun left => ?_
        rw [Rule.anyTrue_cons, Rule.truth]
        exact .unknown op
  · rw [(hp u).1, (hp r).1]
    exact j.rule_shields [] [] h room

theorem single_shields (hu : u.Strange) (r : Value) (c : Comparison) {p : RulePlace}
    (h : ∀ room, Shields ((Rule.ofValue (p.fill u)).truth context room)
      ((Rule.ofValue (p.fill r)).truth context room)) (room : Nat) :
    Shields ((Rule.ofValue ((single c p).fill u)).truth context room)
      ((Rule.ofValue ((single c p).fill r)).truth context room) := by
  rw [fill, fill, Rule.ofValue_comparison, Rule.ofValue_comparison]
  rcases p.fill_cases with rfl | hp
  · obtain ⟨op, hop⟩ := hu.operand
    obtain ⟨fields, -, rfl, -⟩ := hu.fields
    have hfirst : Operand.first (Value.obj fields).operands = .rule (.unknown op) := hop
    rw [Rule.truth_equal, Rule.truth_equal, fill, hfirst, Operand.resolve]
    simp only [Rule.truth]
    -- The operand on the left is the end of it, whatever is on the right.
    obtain ⟨f, hf, he⟩ := @Rule.nested_unknown Value 2 room op
    refine .inr ⟨f, hf, ?_⟩
    change (Rule.nested 2 room fun _ => (.error (.unknownOperator op) : Except RuleFault Value)) >>= _ = _
    rw [he]
    rfl
  · rw [(hp u).1, (hp r).1]
    exact Rule.equal_shields _ (resolve_shields hu r h room) (.refl _)

end RulePlace

mutual

/-- With a node that is not understood in a place, a rule comes to nothing on such a node or does not
depend on what is in the place. -/
theorem RulePlace.shields {u : Value} (hu : u.Strange) (r : Value) : ∀ (p : RulePlace) (room : Nat),
    Shields ((Rule.ofValue (p.fill u)).truth context room)
      ((Rule.ofValue (p.fill r)).truth context room)
  | .here, room => by
      obtain ⟨op, hop⟩ := hu.rule
      rw [RulePlace.fill, hop, Rule.truth]
      exact .unknown op
  | .joined j before inner after, room => by
      simp only [RulePlace.fill, Rule.ofValue_junction, Value.operands, List.map_append, List.map_cons]
      exact j.rule_shields _ _ (inner.shields hu r) room
  | .alone j inner, room => RulePlace.alone_shields hu r j (inner.shields hu r) room
  | .left c inner others, room => by
      simp only [RulePlace.fill, Rule.ofValue_comparison, Value.operands]
      exact Rule.equal_shields _ (inner.shields hu r room) (by cases others <;> exact .refl _)
  | .right c first inner others, room => by
      simp only [RulePlace.fill, Rule.ofValue_comparison, Value.operands]
      exact Rule.equal_shields _ (.refl _) (inner.shields hu r room)
  | .single c inner, room => RulePlace.single_shields hu r c (inner.shields hu r) room

theorem OperandPlace.shields {u : Value} (hu : u.Strange) (r : Value) :
    ∀ (p : OperandPlace) (room : Nat), Shields ((Operand.ofValue (p.fill u)).resolve context room)
      ((Operand.ofValue (p.fill r)).resolve context room)
  | .rule inner, room => RulePlace.resolve_shields hu r (inner.shields hu r) room
  | .item before inner after, room => by
      simp only [OperandPlace.fill, Operand.ofValue, Operand.ofList_eq_map, List.map_append,
        List.map_cons, Operand.resolve]
      exact .nested 2 room fun left =>
        (Operand.resolveAll_shields _ _ (inner.shields hu r left)).map _

end

end GuidedJourney
