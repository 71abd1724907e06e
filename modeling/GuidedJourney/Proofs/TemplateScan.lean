import GuidedJourney.Proofs.DataFaults
import GuidedJourney.State.Template
import Mathlib.Data.List.TakeWhile

namespace GuidedJourney

section Stop

variable {p : Char → Bool} {xs ys : List Char} {y : Char}

theorem dropWhile_stop (h : xs.dropWhile p = y :: ys) (zs : List Char) :
    (xs ++ zs).dropWhile p = y :: (ys ++ zs) := by
  rw [List.dropWhile_append, h]
  rfl

theorem takeWhile_stop (h : xs.dropWhile p = y :: ys) (zs : List Char) :
    (xs ++ zs).takeWhile p = xs.takeWhile p := by
  have hlength : (xs.takeWhile p).length ≠ xs.length := by
    have hsplit := congrArg List.length (List.takeWhile_append_dropWhile (p := p) (l := xs))
    rw [h, List.length_append, List.length_cons] at hsplit
    omega
  rw [List.takeWhile_append, if_neg hlength]

end Stop

namespace Text

/-- What is trimmed off a text are blanks on both sides. -/
theorem trim_split (cs : List Char) : ∃ before after, (∀ c ∈ before, isBlank c = true) ∧
    (∀ c ∈ after, isBlank c = true) ∧ cs = before ++ (trim cs ++ after) := by
  refine ⟨cs.takeWhile isBlank, ((cs.dropWhile isBlank).reverse.takeWhile isBlank).reverse,
    fun c hc => List.mem_takeWhile_imp hc, fun c hc => List.mem_takeWhile_imp (List.mem_reverse.mp hc), ?_⟩
  rw [trim, dropEnd, ← List.reverse_append, List.takeWhile_append_dropWhile, List.reverse_reverse,
    List.takeWhile_append_dropWhile]

theorem trim_padded {before after mid : List Char} {c d : Char}
    (hbefore : ∀ c ∈ before, isBlank c = true) (hafter : ∀ c ∈ after, isBlank c = true)
    (hc : isBlank c = false) (hd : isBlank d = false) :
    trim (before ++ (c :: mid ++ [d] ++ after)) = c :: mid ++ [d] := by
  have hfirst : (before ++ (c :: mid ++ [d] ++ after)).dropWhile isBlank = c :: mid ++ [d] ++ after := by
    rw [List.dropWhile_append_of_pos hbefore]
    exact List.dropWhile_cons_of_neg (by simp [hc])
  have hlast : ∀ c ∈ after.reverse, isBlank c = true := fun c h => hafter c (List.mem_reverse.mp h)
  rw [trim, dropEnd, hfirst, List.reverse_append, List.dropWhile_append_of_pos hlast,
    List.reverse_concat, List.dropWhile_cons_of_neg (by simp [hd]), ← List.reverse_concat,
    List.reverse_reverse]

end Text

namespace Template

def mark : Scope → List Char
  | .module => moduleMark
  | .screen => screenMark

theorem scopeMark?_eq_some_iff {cs path : List Char} {scope : Scope} :
    scopeMark? cs = some (scope, path) ↔ cs = mark scope ++ path := by
  constructor
  · intro h
    unfold scopeMark? at h
    split at h
    · rename_i hpre
      cases h
      exact (List.prefix_iff_eq_append.mp (List.isPrefixOf_iff_prefix.mp hpre)).symm
    · split at h
      · rename_i hpre
        cases h
        exact (List.prefix_iff_eq_append.mp (List.isPrefixOf_iff_prefix.mp hpre)).symm
      · cases h
  · rintro rfl
    cases scope <;> rfl

theorem scoped?_eq_some_iff {cs rest : List Char} {p : Placeholder} :
    scoped? cs = some (p, rest) ↔ ∃ scope path c closed,
      (dropOne '\x7b' cs).dropWhile Text.isBlank = mark scope ++ path ∧
      path.dropWhile (· != '\x7d') = c :: closed ∧ path.takeWhile (· != '\x7d') ≠ [] ∧
      p = .scoped scope (Text.trim (path.takeWhile (· != '\x7d'))) ∧
      rest = dropOne '\x7d' closed := by
  constructor
  · intro h
    obtain ⟨⟨scope, path⟩, hmark, h⟩ := Option.bind_eq_some_iff.mp h
    dsimp only at h
    split at h
    · cases h
    · rename_i c closed hclose
      split at h
      · cases h
      · rename_i hbody
        cases h
        exact ⟨scope, path, c, closed, scopeMark?_eq_some_iff.mp hmark, hclose,
          by simpa using hbody, rfl, rfl⟩
  · rintro ⟨scope, path, c, closed, hmark, hclose, hbody, rfl, rfl⟩
    refine Option.bind_eq_some_iff.mpr ⟨(scope, path), scopeMark?_eq_some_iff.mpr hmark, ?_⟩
    dsimp only
    rw [hclose]
    exact if_neg (by simpa using hbody)

theorem merged?_eq_some_iff {cs rest : List Char} {p : Placeholder} :
    merged? cs = some (p, rest) ↔ ∃ r c name, cs = '\x7b' :: r ∧
      r.dropWhile Text.isBlank = c :: name ∧ isNameStart c = true ∧
      (name.dropWhile isNameChar).dropWhile Text.isBlank = '\x7d' :: '\x7d' :: rest ∧
      p = .merged (c :: name.takeWhile isNameChar) := by
  constructor
  · intro h
    unfold merged? at h
    split at h
    · rename_i r
      split at h
      · rename_i c name hfirst
        split at h
        · cases h
        · rename_i hc
          split at h
          · rename_i rest' hclose
            cases h
            exact ⟨r, c, name, rfl, hfirst, by simpa using hc, hclose, rfl⟩
          · cases h
      · cases h
    · cases h
  · rintro ⟨r, c, name, rfl, hfirst, hc, hclose, rfl⟩
    simp only [merged?, hfirst, hc, hclose, Bool.not_true, Bool.false_eq_true, if_false]

/-- The text does not begin with a closing brace, which a placeholder before it would take in. -/
def Unclosing (cs : List Char) : Prop := cs.head? ≠ some '\x7d'

theorem dropOne_append {c : Char} {cs more : List Char} (h : cs = [] → more.head? ≠ some c) :
    dropOne c (cs ++ more) = dropOne c cs ++ more := by
  cases cs with
  | nil =>
      cases more with
      | nil => rfl
      | cons d ds => exact if_neg fun hd => h rfl (congrArg some hd)
  | cons d ds =>
      simp only [List.cons_append, dropOne]
      split <;> rfl

theorem scoped?_append {cs rest more : List Char} {p : Placeholder} (hmore : Unclosing more)
    (h : scoped? cs = some (p, rest)) : scoped? (cs ++ more) = some (p, rest ++ more) := by
  obtain ⟨scope, path, c, closed, hmark, hclose, hbody, hp, hrest⟩ := scoped?_eq_some_iff.mp h
  have hne : cs ≠ [] := by
    rintro rfl
    cases scope <;> cases hmark
  refine scoped?_eq_some_iff.mpr ⟨scope, path ++ more, c, closed ++ more, ?_,
    dropWhile_stop hclose more, ?_, ?_, ?_⟩
  · obtain ⟨d, ds, hd⟩ : ∃ d ds, mark scope = d :: ds := by cases scope <;> exact ⟨_, _, rfl⟩
    rw [hd] at hmark ⊢
    rw [dropOne_append fun hcs => absurd hcs hne, dropWhile_stop hmark more]
    exact congrArg (d :: ·) (List.append_assoc ds path more)
  · rwa [takeWhile_stop hclose more]
  · rw [takeWhile_stop hclose more, hp]
  · rw [hrest, dropOne_append fun _ => hmore]

theorem merged?_append {cs rest : List Char} {p : Placeholder} (h : merged? cs = some (p, rest))
    (more : List Char) : merged? (cs ++ more) = some (p, rest ++ more) := by
  obtain ⟨r, c, name, rfl, hfirst, hc, hclose, hp⟩ := merged?_eq_some_iff.mp h
  obtain ⟨d, after, hname⟩ : ∃ d after, name.dropWhile isNameChar = d :: after := by
    cases hname : name.dropWhile isNameChar with
    | nil => rw [hname] at hclose; cases hclose
    | cons d after => exact ⟨d, after, rfl⟩
  refine merged?_eq_some_iff.mpr ⟨r ++ more, c, name ++ more, rfl, dropWhile_stop hfirst more, hc, ?_, ?_⟩
  · rw [hname] at hclose
    rw [dropWhile_stop hname more]
    exact dropWhile_stop hclose more
  · rw [takeWhile_stop hname more, hp]

theorem scoped?_of_merged? {cs rest : List Char} {p : Placeholder} (h : merged? cs = some (p, rest)) :
    scoped? cs = none := by
  obtain ⟨r, c, name, rfl, hfirst, hc, -, -⟩ := merged?_eq_some_iff.mp h
  refine Option.eq_none_iff_forall_ne_some.mpr fun q hq => ?_
  obtain ⟨scope, path, -, -, hmark, -⟩ := scoped?_eq_some_iff.mp hq
  have hfirst' : r.dropWhile Text.isBlank = mark scope ++ path := hmark
  rw [hfirst] at hfirst'
  -- A scope begins with a dollar sign, with which no path begins.
  cases scope <;> cases (List.cons.inj hfirst').1 <;> exact absurd hc (by decide)

theorem placeholder?_eq_some_iff {cs : List Char} {p : Placeholder} {n : Nat} :
    placeholder? cs = some (p, n) ↔ ∃ r rest, cs = '\x7b' :: r ∧ n = cs.length - rest.length ∧
      (scoped? r = some (p, rest) ∨ merged? r = some (p, rest)) := by
  constructor
  · intro h
    unfold placeholder? at h
    split at h
    · rename_i r
      obtain ⟨⟨q, rest⟩, hq, h⟩ := Option.map_eq_some_iff.mp h
      cases h
      exact ⟨r, rest, rfl, rfl, Option.or_eq_some_iff.mp hq |>.imp_right And.right⟩
    · cases h
  · rintro ⟨r, rest, rfl, rfl, h⟩
    refine Option.map_eq_some_iff.mpr ⟨(p, rest), ?_, rfl⟩
    rcases h with h | h
    · rw [h, Option.some_or]
    · rw [scoped?_of_merged? h, Option.none_or, h]

theorem placeholder?_append {cs more : List Char} {p : Placeholder} {n : Nat}
    (hmore : Unclosing more) (h : placeholder? cs = some (p, n)) :
    placeholder? (cs ++ more) = some (p, n) := by
  obtain ⟨r, rest, rfl, rfl, hread⟩ := placeholder?_eq_some_iff.mp h
  refine placeholder?_eq_some_iff.mpr ⟨r ++ more, rest ++ more, rfl, ?_, ?_⟩
  · simp only [List.length_append]
    omega
  · exact hread.imp (scoped?_append hmore) fun hread => merged?_append hread more

theorem placeholder?_of_ne {c : Char} (h : c ≠ '\x7b') (cs : List Char) : placeholder? (c :: cs) = none := by
  unfold placeholder?
  split
  · rename_i heq
    exact absurd (List.cons.inj heq).1 h
  · rfl

theorem segmentsFrom_eq (n : Nat) (cs : List Char) : segmentsFrom n cs = segments (cs.drop n) := by
  induction n generalizing cs with
  | zero => rfl
  | succ n ih =>
      cases cs with
      | nil => rfl
      | cons c cs => exact ih cs

@[simp] theorem segments_nil : segments [] = [] := rfl

theorem segments_char {c : Char} {cs : List Char} (h : placeholder? (c :: cs) = none) :
    segments (c :: cs) = .char c :: segments cs := by
  rw [segments, segmentsFrom, h]
  rfl

theorem segments_hole {c : Char} {cs : List Char} {p : Placeholder} {n : Nat}
    (h : placeholder? (c :: cs) = some (p, n)) :
    segments (c :: cs) = .hole p ((c :: cs).take n) :: segments (cs.drop (n - 1)) := by
  rw [segments, segmentsFrom, h]
  dsimp only
  rw [segmentsFrom_eq]

theorem segments_append {cs : List Char} (h : '\x7b' ∉ cs) (more : List Char) :
    segments (cs ++ more) = cs.map .char ++ segments more := by
  induction cs with
  | nil => rfl
  | cons c cs ih =>
      obtain ⟨hc, hcs⟩ := List.ne_and_not_mem_of_not_mem_cons h
      rw [List.cons_append, segments_char (placeholder?_of_ne hc.symm _), ih hcs]
      rfl

theorem segments_eq_nil {cs : List Char} (h : segments cs = []) : cs = [] := by
  cases cs with
  | nil => rfl
  | cons c cs =>
      cases hp : placeholder? (c :: cs) with
      | none => rw [segments_char hp] at h; cases h
      | some q => rw [segments_hole hp] at h; cases h

theorem segments_eq_hole {cs source : List Char} {p : Placeholder} {rest : List Segment}
    (h : segments cs = .hole p source :: rest) : ∃ c cs' n, cs = c :: cs' ∧
      placeholder? (c :: cs') = some (p, n) ∧ rest = segments (cs'.drop (n - 1)) := by
  cases cs with
  | nil => cases h
  | cons c cs =>
      cases hp : placeholder? (c :: cs) with
      | none => rw [segments_char hp] at h; cases h
      | some q =>
          rw [segments_hole hp] at h
          cases h
          exact ⟨c, cs, q.2, rfl, hp, rfl⟩

def Free (cs : List Char) : Prop := ∀ rest, rest <:+ cs → placeholder? rest = none

theorem free_of_notMem {cs : List Char} (h : '\x7b' ∉ cs) : Free cs := by
  intro rest hrest
  cases rest with
  | nil => rfl
  | cons c rest => exact placeholder?_of_ne (fun hc => h (hc ▸ hrest.subset List.mem_cons_self)) rest

theorem Free.segments {cs : List Char} (h : Free cs) : segments cs = cs.map .char := by
  induction cs with
  | nil => rfl
  | cons c cs ih =>
      have hrest : Free cs := fun rest hsuffix => h rest (hsuffix.trans (List.suffix_cons c cs))
      rw [segments_char (h _ List.suffix_rfl), ih hrest]
      rfl

theorem unopening_of_blank {cs : List Char} (h : ∀ c ∈ cs, Text.isBlank c = true) : '\x7b' ∉ cs :=
  fun hc => absurd (h _ hc) (by decide +kernel)

theorem unclosing_of_blank {cs : List Char} (h : ∀ c ∈ cs, Text.isBlank c = true) : Unclosing cs := by
  intro hhead
  have hblank := h _ (List.mem_of_mem_head? hhead)
  exact absurd hblank (by decide +kernel)

theorem Free.trim {cs : List Char} (h : Free cs) : placeholder? (Text.trim cs) = none := by
  obtain ⟨before, after, -, hafter, hcs⟩ := Text.trim_split cs
  refine Option.eq_none_iff_forall_ne_some.mpr fun q hq => ?_
  have hmore := placeholder?_append (unclosing_of_blank hafter) hq
  rw [h _ ⟨before, hcs.symm⟩] at hmore
  cases hmore

/-- A text that is one placeholder once it is trimmed is one placeholder between blanks. -/
theorem segments_of_trim {cs source : List Char} {p : Placeholder}
    (h : segments (Text.trim cs) = [.hole p source]) : ∃ before source' after : List Char,
      segments cs = before.map .char ++ .hole p source' :: after.map .char ∧
      (∀ c ∈ before, Text.isBlank c = true) ∧ ∀ c ∈ after, Text.isBlank c = true := by
  obtain ⟨before, after, hbefore, hafter, hcs⟩ := Text.trim_split cs
  obtain ⟨c, mid, n, htrim, hn, hmid⟩ := segments_eq_hole h
  -- The placeholder takes in all of the trimmed text, and maybe some of the blanks after it.
  have hmore : placeholder? (c :: (mid ++ after)) = some (p, n) :=
    placeholder?_append (unclosing_of_blank hafter) hn
  have hrest : (mid ++ after).drop (n - 1) = after.drop (n - 1 - mid.length) := by
    rw [List.drop_append, segments_eq_nil hmid.symm, List.nil_append]
  have hblank : ∀ c ∈ after.drop (n - 1 - mid.length), Text.isBlank c = true :=
    fun c hc => hafter c (List.mem_of_mem_drop hc)
  have hsegments : segments (c :: (mid ++ after)) =
      .hole p ((c :: (mid ++ after)).take n) :: (after.drop (n - 1 - mid.length)).map .char := by
    rw [segments_hole hmore, hrest, (free_of_notMem (unopening_of_blank hblank)).segments]
  refine ⟨before, (c :: (mid ++ after)).take n, after.drop (n - 1 - mid.length), ?_, hbefore, hblank⟩
  rw [hcs, htrim, segments_append (unopening_of_blank hbefore), List.cons_append, hsegments]

end Template

namespace Value

mutual

/-- The texts in a value, other than the keys of objects. -/
def texts : Value → List String
  | .str t => [t]
  | .list xs => textsOfItems xs
  | .obj fs => textsOfFields fs
  | _ => []

def textsOfItems : List Value → List String
  | [] => []
  | x :: xs => texts x ++ textsOfItems xs

def textsOfFields : List (String × Value) → List String
  | [] => []
  | (_, v) :: fs => texts v ++ textsOfFields fs

end

/-- No text in the value is a reference or has a placeholder in it. -/
def Plain (v : Value) : Prop :=
  ∀ t ∈ v.texts, Template.scopeMark? t.toList = none ∧ Template.Free t.toList

theorem plain_of_notMem {t : String} (hdollar : '$' ∉ t.toList) (hbrace : '\x7b' ∉ t.toList) :
    (Value.str t).Plain := by
  intro t' ht
  obtain rfl : t' = t := List.mem_singleton.mp ht
  refine ⟨Option.eq_none_iff_forall_ne_some.mpr fun ⟨scope, path⟩ hmark => ?_,
    Template.free_of_notMem hbrace⟩
  rw [Template.scopeMark?_eq_some_iff.mp hmark] at hdollar
  cases scope <;> exact hdollar (List.mem_append_left _ List.mem_cons_self)

end Value

namespace Scopes

variable (s : Scopes)

theorem fill_append (cs : List Char) (rest : List Segment) :
    s.fill (cs.map .char ++ rest) = (s.fill rest).map (cs ++ ·) := by
  induction cs with
  | nil => cases h : s.fill rest <;> simp [Except.map, h]
  | cons c cs ih =>
      change (s.fill (cs.map .char ++ rest)).map (c :: ·) = _
      rw [ih]
      cases s.fill rest <;> rfl

theorem fill_chars (cs : List Char) : s.fill (cs.map .char) = .ok cs := by
  have happend := s.fill_append cs []
  rw [List.append_nil] at happend
  exact happend.trans (congrArg Except.ok (List.append_nil cs))

theorem interpolate_free {t : String} (h : Template.Free t.toList) : s.interpolate t = .ok (.str t) := by
  unfold interpolate
  split
  · rename_i p source hsegments
    obtain ⟨c, cs, n, htrim, hn, -⟩ := Template.segments_eq_hole hsegments
    rw [← htrim, h.trim] at hn
    cases hn
  · rw [h.segments, fill_chars]
    exact congrArg (fun t => Except.ok (Value.str t)) String.ofList_toList

mutual

theorem render_plain : ∀ v : Value, v.Plain → s.render v = .ok v
  | .str t, h => by
      obtain ⟨hmark, hfree⟩ := h t (List.mem_singleton.mpr rfl)
      rw [render, renderText, hmark]
      exact s.interpolate_free hfree
  | .list xs, h => by
      rw [render, renderItems_plain xs h]
      rfl
  | .obj fs, h => by
      rw [render, renderFields_plain fs h]
      rfl
  | .null, _ | .bool _, _ | .int _, _ | .num _, _ | .date _, _ | .moment _, _ => by
      rw [render]
      all_goals exact nofun

theorem renderItems_plain : ∀ xs : List Value, (Value.list xs).Plain → s.renderItems xs = .ok xs
  | [], _ => by rw [renderItems]
  | x :: xs, h => by
      obtain ⟨hx, hxs⟩ := List.forall_mem_append.mp h
      rw [renderItems, render_plain x hx, renderItems_plain xs hxs]
      rfl

theorem renderFields_plain : ∀ fs : List (String × Value), (Value.obj fs).Plain →
    s.renderFields fs = .ok fs
  | [], _ => by rw [renderFields]
  | (k, v) :: fs, h => by
      obtain ⟨hv, hfs⟩ := List.forall_mem_append.mp h
      rw [renderFields, render_plain v hv, renderFields_plain fs hfs]
      rfl

end

end Scopes

end GuidedJourney
