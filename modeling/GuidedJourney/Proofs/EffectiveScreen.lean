import GuidedJourney.Proofs.DataFaults
import GuidedJourney.Proofs.FieldUpdate
import Mathlib.Data.List.Forall2

namespace GuidedJourney

theorem mapM_ok_iff {ε α β : Type} {f : α → Except ε β} {xs : List α} {ys : List β} :
    xs.mapM f = .ok ys ↔ List.Forall₂ (fun x y => f x = .ok y) xs ys := by
  induction xs generalizing ys with
  | nil =>
      rw [List.mapM_nil, List.forall₂_nil_left_iff]
      exact ⟨fun h => (Except.ok.inj h).symm, fun h => h ▸ rfl⟩
  | cons x xs ih =>
      rw [List.mapM_cons, List.forall₂_cons_left_iff, bind_ok_iff]
      constructor
      · rintro ⟨y, hy, h⟩
        obtain ⟨rest, hrest, h⟩ := bind_ok_iff.mp h
        exact ⟨y, rest, hy, ih.mp hrest, (Except.ok.inj h).symm⟩
      · rintro ⟨y, rest, hy, hrest, rfl⟩
        exact ⟨y, hy, bind_ok_iff.mpr ⟨rest, ih.mpr hrest, rfl⟩⟩

theorem getElem?_forall₂ {α β : Type} {R : α → β → Prop} {xs : List α} {ys : List β} {n : Nat} {x : α}
    (h : List.Forall₂ R xs ys) (hx : xs[n]? = some x) : ∃ y, R x y ∧ ys[n]? = some y := by
  induction h generalizing n with
  | nil => cases hx
  | @cons x' y' xs ys hxy _ ih =>
      cases n with
      | zero =>
          cases hx
          exact ⟨y', hxy, rfl⟩
      | succ n => exact ih hx

theorem forall₂_mem_left {α β : Type} {R : α → β → Prop} {xs : List α} {ys : List β}
    (h : List.Forall₂ R xs ys) {x : α} (hx : x ∈ xs) : ∃ y ∈ ys, R x y := by
  obtain ⟨n, hn⟩ := List.mem_iff_getElem?.mp hx
  obtain ⟨y, hxy, hy⟩ := getElem?_forall₂ h hn
  exact ⟨y, List.mem_of_getElem? hy, hxy⟩

theorem forall₂_mem_right {α β : Type} {R : α → β → Prop} {xs : List α} {ys : List β}
    (h : List.Forall₂ R xs ys) {y : β} (hy : y ∈ ys) : ∃ x ∈ xs, R x y :=
  forall₂_mem_left (R := flip R) (List.Forall₂.flip h) hy

namespace Scopes

variable {s : Scopes}

theorem renderFields_ok_iff {fs gs : Fields} : s.renderFields fs = .ok gs ↔
    List.Forall₂ (fun f g => g.1 = f.1 ∧ s.render f.2 = .ok g.2) fs gs := by
  induction fs generalizing gs with
  | nil =>
      rw [renderFields, List.forall₂_nil_left_iff]
      exact ⟨fun h => (Except.ok.inj h).symm, fun h => h ▸ rfl⟩
  | cons f fs ih =>
      rcases f with ⟨key, v⟩
      rw [renderFields, List.forall₂_cons_left_iff, bind_ok_iff]
      constructor
      · rintro ⟨w, hw, h⟩
        obtain ⟨rest, hrest, h⟩ := bind_ok_iff.mp h
        exact ⟨(key, w), rest, ⟨rfl, hw⟩, ih.mp hrest, (Except.ok.inj h).symm⟩
      · rintro ⟨⟨key', w⟩, rest, ⟨rfl, hw⟩, hrest, rfl⟩
        exact ⟨w, hw, bind_ok_iff.mpr ⟨rest, ih.mpr hrest, rfl⟩⟩

end Scopes

namespace Condition

variable {context : Fields}

/-- The condition has a rule, and the rule is true. -/
def Holds (context : Fields) (c : Condition) : Prop :=
  c.rule.isNull = false ∧ c.rule.holds context = .ok true

def HoldsAt (context : Fields) (cs : List Condition) (i : Nat) : Prop :=
  ∃ c, cs[i]? = some c ∧ c.Holds context

/-- The greatest position of a condition that holds, if there is one. -/
def IsLast (context : Fields) (cs : List Condition) : Option Nat → Prop
  | some i => HoldsAt context cs i ∧ ∀ j, HoldsAt context cs j → j ≤ i
  | none => ∀ j, ¬ HoldsAt context cs j

theorem IsLast.unique {cs : List Condition} {w w' : Option Nat} (h : IsLast context cs w)
    (h' : IsLast context cs w') : w = w' := by
  cases w with
  | none =>
      cases w' with
      | none => rfl
      | some j => exact absurd h'.1 (h j)
  | some i =>
      cases w' with
      | none => exact absurd h.1 (h' i)
      | some j => rw [Nat.le_antisymm (h'.2 i h.1) (h.2 j h'.1)]

end Condition

namespace Element

variable {e : Element} {merged : Fields} {is : Interactions} {templates : Option Scopes}

end Element

def ScreenView.elements (v : ScreenView) : List ElementView := v.sections.flatMap SectionView.elements

namespace Screen

variable {s : Screen} {merged : Fields} {is : Interactions} {templates : Option Scopes}

end Screen

namespace Lobby

def sign : Element where
  declared := .str "textBlock"
  state := [("id", .str "sign"), ("text", .str "Welcome"), ("color", .str "grey")]
  style := []
  conditions := [⟨.null, [("text", .str "Closed")]⟩,
    ⟨.obj [("var", .str "guest")], [("text", .str "$moduleData.guest")]⟩]
  events := []

def wall : Section := ⟨"wall", .null, .body, .stack, .vertical, false, [sign]⟩

def screen : Screen where
  id := "lobby"
  title := .null
  hidesBackButton := false
  state := []
  sections := [wall]
  events := []

end Lobby

end GuidedJourney
