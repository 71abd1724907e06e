import GuidedJourney.Proofs.FieldUpdate
import GuidedJourney.Proofs.TemplateScan

namespace GuidedJourney

def Segment.isHole : Segment → Bool
  | .char _ => false
  | .hole .. => true

namespace Template

/-- A placeholder as it is written: a path in a scope between single or double braces, or a path alone
between double ones. -/
inductive Slot where
  | single (scope : Scope) (path : List Char)
  | double (scope : Scope) (path : List Char)
  | merged (path : List Char)

namespace Slot

def text : Slot → List Char
  | .single scope path => '\x7b' :: (mark scope ++ path) ++ ['\x7d']
  | .double scope path => '\x7b' :: ('\x7b' :: (mark scope ++ (path ++ ['\x7d']))) ++ ['\x7d']
  | .merged path => '\x7b' :: ('\x7b' :: (path ++ ['\x7d'])) ++ ['\x7d']

def name : Slot → Placeholder
  | .single scope path | .double scope path => .scoped scope path
  | .merged path => .merged path

/-- A path in a scope is any text without closing braces and without blanks around it. A path alone is
of ASCII letters, digits, underscores, dots and dashes, the first of them a letter or an underscore. -/
def WellFormed : Slot → Prop
  | .single _ path | .double _ path => path ≠ [] ∧ '\x7d' ∉ path ∧ Text.trim path = path
  | .merged [] => False
  | .merged (c :: cs) => (c.isAlpha = true ∨ c = '_') ∧
      ∀ d ∈ cs, d.isAlphanum = true ∨ d = '_' ∨ d = '.' ∨ d = '-'

instance : DecidablePred WellFormed
  | .single _ path | .double _ path =>
      inferInstanceAs (Decidable (path ≠ [] ∧ '\x7d' ∉ path ∧ Text.trim path = path))
  | .merged [] => inferInstanceAs (Decidable False)
  | .merged (c :: cs) =>
      -- The letters of the path are tried, not all that there are.
      have : Decidable (∀ d ∈ cs, d.isAlphanum = true ∨ d = '_' ∨ d = '.' ∨ d = '-') :=
        List.decidableBAll _ cs
      inferInstanceAs (Decidable ((c.isAlpha = true ∨ c = '_') ∧
        ∀ d ∈ cs, d.isAlphanum = true ∨ d = '_' ∨ d = '.' ∨ d = '-'))

def find? (s : Scopes) : Slot → Except Fault (Option Value)
  | .single scope path | .double scope path => Path.find? (s.fields scope) (String.ofList path)
  | .merged path => Path.find? s.merged (String.ofList path)

/-- What stands for the placeholder in running text: the text of its value, nothing for null, and the
placeholder itself if it has no value. -/
def shown (slot : Slot) : Option Value → List Char
  | none => slot.text
  | some .null => []
  | some v => v.text.toList

theorem find?_name (s : Scopes) (slot : Slot) : s.find? slot.name = slot.find? s := by
  cases slot <;> rfl

theorem insertion_eq_shown (slot : Slot) (found : Option Value) :
    (found.map Scopes.insertion).getD slot.text = slot.shown found := by
  cases found with
  | none => rfl
  | some v => cases v <;> rfl

theorem scoped?_path {scope : Scope} {path : List Char} (hne : path ≠ []) (hopen : '\x7d' ∉ path)
    (htrim : Text.trim path = path) {cs closed : List Char}
    (hcs : dropOne '\x7b' cs = mark scope ++ (path ++ '\x7d' :: closed)) :
    scoped? cs = some (.scoped scope path, dropOne '\x7d' closed) := by
  have hpath : ∀ c ∈ path, (c != '\x7d') = true := by
    intro c hc
    exact bne_iff_ne.mpr fun h => hopen (h ▸ hc)
  have hbody : (path ++ '\x7d' :: closed).takeWhile (· != '\x7d') = path := by
    rw [List.takeWhile_append_of_pos hpath, List.takeWhile_cons_of_neg (by decide), List.append_nil]
  refine scoped?_eq_some_iff.mpr ⟨scope, path ++ '\x7d' :: closed, '\x7d', closed, ?_, ?_, ?_, ?_, rfl⟩
  · rw [hcs]
    cases scope <;> exact List.dropWhile_cons_of_neg (by decide +kernel)
  · rw [List.dropWhile_append_of_pos hpath, List.dropWhile_cons_of_neg (by decide)]
  · rwa [hbody]
  · rw [hbody, htrim]

theorem isNameChar_ascii {c : Char} (h : c.isAlphanum = true ∨ c = '_' ∨ c = '.' ∨ c = '-') :
    isNameChar c = true := by
  rcases h with h | rfl | rfl | rfl
  · simp [isNameChar, Text.isWord, h]
  all_goals rfl

theorem isNameStart_bounds {c : Char} (h : isNameStart c = true) : 65 ≤ c.toNat ∧ c.toNat ≤ 122 := by
  rcases Bool.or_eq_true_iff.mp h with hletter | hunderscore
  · exact Text.isAlpha_bounds hletter
  · obtain rfl := eq_of_beq hunderscore
    decide

theorem isBlank_of_isNameStart {c : Char} (h : isNameStart c = true) : Text.isBlank c = false := by
  have hbounds := isNameStart_bounds h
  simp [Text.isBlank, Text.within, Text.blankRanges]
  omega

theorem merged?_path {c : Char} {name : List Char} (hc : isNameStart c = true)
    (hname : ∀ d ∈ name, isNameChar d = true) (more : List Char) :
    merged? ('\x7b' :: c :: (name ++ '\x7d' :: '\x7d' :: more)) = some (.merged (c :: name), more) := by
  have hbrace : isNameChar '\x7d' = false := by decide +kernel
  refine merged?_eq_some_iff.mpr ⟨_, c, name ++ '\x7d' :: '\x7d' :: more, rfl, ?_, hc, ?_, ?_⟩
  · exact List.dropWhile_cons_of_neg (by simp [isBlank_of_isNameStart hc])
  · rw [List.dropWhile_append_of_pos hname, List.dropWhile_cons_of_neg (by simp [hbrace])]
    exact List.dropWhile_cons_of_neg (by decide +kernel)
  · rw [List.takeWhile_append_of_pos hname, List.takeWhile_cons_of_neg (by simp [hbrace]),
      List.append_nil]

theorem read_text {slot : Slot} (h : slot.WellFormed) {more : List Char} (hmore : Unclosing more) :
    ∃ r, slot.text ++ more = '\x7b' :: r ∧
      (scoped? r = some (slot.name, more) ∨ merged? r = some (slot.name, more)) := by
  have hrest : dropOne '\x7d' ([] ++ more) = more := dropOne_append fun _ => hmore
  cases slot with
  | single scope path =>
      obtain ⟨hne, hopen, htrim⟩ := h
      have hstart : dropOne '\x7b' (mark scope ++ (path ++ '\x7d' :: more)) =
          mark scope ++ (path ++ '\x7d' :: more) := by cases scope <;> rfl
      refine ⟨mark scope ++ (path ++ '\x7d' :: more), by simp [text], .inl ?_⟩
      exact (scoped?_path hne hopen htrim hstart).trans (congrArg (fun r => some (_, r)) hrest)
  | double scope path =>
      obtain ⟨hne, hopen, htrim⟩ := h
      have hstart : dropOne '\x7b' ('\x7b' :: (mark scope ++ (path ++ '\x7d' :: '\x7d' :: more))) =
          mark scope ++ (path ++ '\x7d' :: '\x7d' :: more) := rfl
      exact ⟨_, by simp [text], .inl (scoped?_path hne hopen htrim hstart)⟩
  | merged path =>
      obtain ⟨c, name, rfl⟩ : ∃ c name, path = c :: name := by
        cases path with
        | nil => cases h
        | cons c name => exact ⟨c, name, rfl⟩
      obtain ⟨hc, hname⟩ := h
      refine ⟨'\x7b' :: c :: (name ++ '\x7d' :: '\x7d' :: more), by simp [text], .inr ?_⟩
      exact merged?_path (by simpa [isNameStart] using hc)
        (fun d hd => isNameChar_ascii (hname d hd)) more

theorem placeholder?_text {slot : Slot} (h : slot.WellFormed) {more : List Char}
    (hmore : Unclosing more) : placeholder? (slot.text ++ more) = some (slot.name, slot.text.length) := by
  obtain ⟨r, htext, hread⟩ := read_text h hmore
  refine placeholder?_eq_some_iff.mpr ⟨r, more, htext, ?_, hread⟩
  rw [List.length_append, Nat.add_sub_cancel]

theorem segments_text {slot : Slot} (h : slot.WellFormed) {more : List Char} (hmore : Unclosing more) :
    segments (slot.text ++ more) = .hole slot.name slot.text :: segments more := by
  have hread := placeholder?_text h hmore
  obtain ⟨r, htext⟩ : ∃ r, slot.text = '\x7b' :: r := by cases slot <;> exact ⟨_, rfl⟩
  rw [htext, List.cons_append] at hread ⊢
  rw [segments_hole hread]
  simp

end Slot

/-- A piece of a template: literal text, or a placeholder. -/
inductive Piece where
  | literal (cs : List Char)
  | hole (slot : Slot)

namespace Piece

def text : Piece → List Char
  | .literal cs => cs
  | .hole slot => slot.text

def WellFormed : Piece → Prop
  | .literal cs => '\x7b' ∉ cs ∧ '\x7d' ∉ cs
  | .hole slot => slot.WellFormed

instance : DecidablePred WellFormed
  | .literal cs => inferInstanceAs (Decidable ('\x7b' ∉ cs ∧ '\x7d' ∉ cs))
  | .hole slot => inferInstanceAs (Decidable slot.WellFormed)

def segments : Piece → List Segment
  | .literal cs => cs.map .char
  | .hole slot => [.hole slot.name slot.text]

def slot? : Piece → Option Slot
  | .literal _ => none
  | .hole slot => some slot

def shown (found : Slot → Option Value) : Piece → List Char
  | .literal cs => cs
  | .hole slot => slot.shown (found slot)

end Piece

def ofPieces (ps : List Piece) : List Char := ps.flatMap Piece.text

/-- The pieces are one placeholder and literal texts of blanks. -/
def Sole (slot : Slot) (ps : List Piece) : Prop :=
  ps.filterMap Piece.slot? = [slot] ∧ ∀ cs, .literal cs ∈ ps → ∀ c ∈ cs, Text.isBlank c = true

theorem unclosing_ofPieces {ps : List Piece} (h : ∀ p ∈ ps, p.WellFormed) : Unclosing (ofPieces ps) := by
  induction ps with
  | nil => exact nofun
  | cons p ps ih =>
      obtain ⟨hp, hps⟩ := List.forall_mem_cons.mp h
      rw [ofPieces, List.flatMap_cons, Unclosing]
      cases p with
      | literal cs =>
          cases cs with
          | nil => exact ih hps
          | cons c cs => exact fun hc => hp.2 (Option.some.inj hc ▸ List.mem_cons_self)
      | hole slot => cases slot <;> exact fun hc => absurd (Option.some.inj hc) (by decide)

theorem segments_ofPieces {ps : List Piece} (h : ∀ p ∈ ps, p.WellFormed) :
    segments (ofPieces ps) = ps.flatMap Piece.segments := by
  induction ps with
  | nil => rfl
  | cons p ps ih =>
      obtain ⟨hp, hps⟩ := List.forall_mem_cons.mp h
      rw [List.flatMap_cons, ← ih hps, ofPieces, List.flatMap_cons]
      cases p with
      | literal cs => exact segments_append hp.1 _
      | hole slot => exact slot.segments_text hp (unclosing_ofPieces hps)

theorem countP_chars (cs : List Char) : (cs.map Segment.char).countP Segment.isHole = 0 := by
  simp [List.countP_eq_zero, Segment.isHole]

theorem countP_segments (ps : List Piece) :
    (ps.flatMap Piece.segments).countP Segment.isHole = (ps.filterMap Piece.slot?).length := by
  induction ps with
  | nil => rfl
  | cons p ps ih =>
      rw [List.flatMap_cons, List.countP_append, ih]
      cases p with
      | literal cs => exact (congrArg (· + _) (countP_chars cs)).trans (Nat.zero_add _)
      | hole slot => exact Nat.add_comm 1 _

theorem sole_of_trim {ps : List Piece} (h : ∀ p ∈ ps, p.WellFormed) {p : Placeholder}
    {source : List Char} (htrim : segments (Text.trim (ofPieces ps)) = [.hole p source]) :
    ∃ slot, Sole slot ps := by
  obtain ⟨before, source', after, hsegments, hbefore, hafter⟩ := segments_of_trim htrim
  rw [segments_ofPieces h] at hsegments
  -- One placeholder is read, so one is written, and all else that is read are blanks.
  have hcount : (ps.filterMap Piece.slot?).length = 1 := by
    rw [← countP_segments, hsegments, List.countP_append, countP_chars, Nat.zero_add,
      List.countP_cons, countP_chars]
    rfl
  obtain ⟨slot, hslot⟩ := List.length_eq_one_iff.mp hcount
  refine ⟨slot, hslot, fun cs hcs c hc => ?_⟩
  have hmem : Segment.char c ∈ ps.flatMap Piece.segments :=
    List.mem_flatMap.mpr ⟨_, hcs, List.mem_map_of_mem hc⟩
  rw [hsegments] at hmem
  have hblank : c ∈ before ∨ c ∈ after := by simpa using hmem
  exact hblank.elim (hbefore c) (hafter c)

theorem ofPieces_blank {ps : List Piece} (hslots : ∀ p ∈ ps, p.slot? = none)
    (hblank : ∀ cs, .literal cs ∈ ps → ∀ c ∈ cs, Text.isBlank c = true) :
    ∀ c ∈ ofPieces ps, Text.isBlank c = true := by
  intro c hc
  obtain ⟨p, hp, hc⟩ := List.mem_flatMap.mp hc
  cases p with
  | literal cs => exact hblank cs hp c hc
  | hole slot => cases hslots _ hp

theorem Sole.trim {slot : Slot} {ps : List Piece} (h : Sole slot ps) :
    Text.trim (ofPieces ps) = slot.text := by
  obtain ⟨hslot, hblank⟩ := h
  obtain ⟨before, p, after, rfl, hbefore, hp, hafter⟩ := List.filterMap_eq_cons_iff.mp hslot
  have hbefore := ofPieces_blank hbefore fun cs hcs => hblank cs (List.mem_append_left _ hcs)
  have hafter := ofPieces_blank (List.filterMap_eq_nil_iff.mp hafter) fun cs hcs =>
    hblank cs (List.mem_append_right _ (List.mem_cons_of_mem _ hcs))
  have hwritten : ofPieces (before ++ p :: after) = ofPieces before ++ (slot.text ++ ofPieces after) := by
    cases p with
    | literal cs => cases hp
    | hole slot' =>
        cases hp
        simp [ofPieces, Piece.text]
  rw [hwritten]
  cases slot <;> exact Text.trim_padded hbefore hafter (by decide +kernel) (by decide +kernel)

end Template

namespace Scopes

open Template

variable {s : Scopes} {ps : List Piece} {found : Slot → Option Value}

/-- Every piece is filled in for itself: what a value brings in is not searched again. -/
theorem fill_pieces (hfound : ∀ slot, .hole slot ∈ ps → slot.find? s = .ok (found slot))
    (hwritten : ∀ slot, .hole slot ∈ ps → ((found slot).getD .null).legible Value.stackRoom = .ok ()) :
    s.fill (ps.flatMap Piece.segments) = .ok (ps.flatMap (Piece.shown found)) := by
  induction ps with
  | nil => rfl
  | cons p ps ih =>
      have hrest := ih (fun slot hslot => hfound slot (List.mem_cons_of_mem _ hslot))
        fun slot hslot => hwritten slot (List.mem_cons_of_mem _ hslot)
      rw [List.flatMap_cons]
      cases p with
      | literal cs =>
          refine (fill_append s cs _).trans ?_
          rw [hrest]
          rfl
      | hole slot =>
          change (s.find? slot.name >>= fun f => (f.getD .null).legible Value.stackRoom >>= fun _ =>
            s.fill (ps.flatMap Piece.segments) >>= fun tail =>
              Except.ok ((f.map insertion).getD slot.text ++ tail)) = _
          rw [slot.find?_name, hfound slot List.mem_cons_self, hrest]
          change ((found slot).getD .null).legible Value.stackRoom >>= _ = _
          rw [hwritten slot List.mem_cons_self]
          exact congrArg (fun cs => Except.ok (cs ++ _)) (slot.insertion_eq_shown (found slot))

/-- A template that is a placeholder, maybe between blanks, becomes the value of the placeholder, or
stays as it is if there is none. Any other becomes the text of its pieces, one after another, if the
values that are brought in can be written as texts. A path alone is looked up in the fields of the screen
before those of the module. -/
theorem interpolate_pieces (s : Scopes) {ps : List Piece} (hps : ∀ p ∈ ps, p.WellFormed)
    {found : Slot → Option Value} (hfound : ∀ slot, .hole slot ∈ ps → slot.find? s = .ok (found slot)) :
    (∀ slot, Sole slot ps → s.interpolate (String.ofList (ofPieces ps)) =
      .ok ((found slot).getD (.str (String.ofList (ofPieces ps))))) ∧
    ((∀ slot, ¬ Sole slot ps) →
      (∀ slot, .hole slot ∈ ps → ((found slot).getD .null).legible Value.stackRoom = .ok ()) →
      s.interpolate (String.ofList (ofPieces ps)) =
        .ok (.str (String.ofList (ps.flatMap (Piece.shown found))))) ∧
    ∀ key, Fields.find? s.merged key = (s.screen.written? key).or (Fields.find? s.module key) := by
  refine ⟨fun slot h => ?_, fun h hwritten => ?_, Fields.overlay_find? s.module s.screen⟩
  · obtain ⟨hslot, hread⟩ : slot.WellFormed ∧ slot.find? s = .ok (found slot) := by
      have hmem : slot ∈ ps.filterMap Piece.slot? := by
        rw [h.1]
        exact List.mem_singleton.mpr rfl
      obtain ⟨p, hp, hslot⟩ := List.mem_filterMap.mp hmem
      cases p with
      | literal cs => cases hslot
      | hole slot' =>
          cases hslot
          exact ⟨hps _ hp, hfound slot hp⟩
    have hsegments : segments slot.text = [.hole slot.name slot.text] := by
      have hread : segments (slot.text ++ []) = _ := Slot.segments_text hslot nofun
      simpa using hread
    rw [interpolate, String.toList_ofList, h.trim, hsegments]
    dsimp only
    rw [slot.find?_name, hread]
    rfl
  · rw [interpolate, String.toList_ofList]
    split
    -- If the trimmed template were read as one placeholder, it would be written as one.
    · rename_i p source htrim
      obtain ⟨slot, hslot⟩ := sole_of_trim hps htrim
      exact absurd hslot (h slot)
    · rw [segments_ofPieces hps, fill_pieces hfound hwritten]
      rfl

/-- A visitor's note that looks like a placeholder is not filled in, the screen's empty level hides the
module's, and an age that is not known stays as it is written. -/
theorem interpolate_pieces_note :
    let s : Scopes := ⟨[("name", .str "Ada"), ("level", .int 1)],
      [("note", .str "\x7b\x7blevel\x7d\x7d"), ("level", .null)]⟩
    let level : Slot := .single .module ['l', 'e', 'v', 'e', 'l']
    let ps : List Piece := [.literal ['H', 'i', ' '], .hole (.single .module ['n', 'a', 'm', 'e']),
      .hole (.double .screen ['n', 'o', 't', 'e']), .hole (.merged ['l', 'e', 'v', 'e', 'l']),
      .hole (.single .module ['a', 'g', 'e'])]
    (∀ p ∈ ps, p.WellFormed) ∧ (∀ slot, ¬ Sole slot ps) ∧
      s.interpolate (String.ofList (ofPieces ps)) =
        .ok (.str "Hi Ada\x7b\x7blevel\x7d\x7d\x7b$moduleData.age\x7d") ∧
      Sole level [.literal [' '], .hole level] ∧
      s.interpolate (String.ofList (ofPieces [.literal [' '], .hole level])) = .ok (.int 1) := by
  intro s level ps
  let found : Slot → Option Value := fun slot => (slot.find? s).toOption.join
  have hread : ∀ slot, .hole slot ∈ ps ∨ slot = level → slot.find? s = .ok (found slot) := by
    rintro slot (h | rfl)
    · simp only [ps, List.mem_cons, List.not_mem_nil, reduceCtorEq, false_or, or_false,
        Piece.hole.injEq] at h
      rcases h with rfl | rfl | rfl | rfl <;> rfl
    · rfl
  have hps : ∀ p ∈ ps, p.WellFormed := by decide +kernel
  have hlevel : ∀ p ∈ [Piece.literal [' '], .hole level], p.WellFormed := by decide +kernel
  have hmany : ∀ slot, ¬ Sole slot ps := fun slot h => by
    have hlength := congrArg List.length h.1
    cases hlength
  have hsole : Sole level [.literal [' '], .hole level] := by
    refine ⟨rfl, fun cs hcs => ?_⟩
    obtain rfl : cs = [' '] := by simpa using hcs
    exact List.forall_mem_singleton.mpr (by decide +kernel)
  have hwritten : ∀ slot, .hole slot ∈ ps →
      ((found slot).getD .null).legible Value.stackRoom = .ok () := by
    intro slot h
    simp only [ps, List.mem_cons, List.not_mem_nil, reduceCtorEq, false_or, or_false,
      Piece.hole.injEq] at h
    rcases h with rfl | rfl | rfl | rfl <;> rfl
  refine ⟨hps, hmany, ?_, hsole, ?_⟩
  · refine ((interpolate_pieces s hps fun slot h => hread slot (.inl h)).2.1 hmany hwritten).trans ?_
    rfl
  · refine (interpolate_pieces s hlevel fun slot h => hread slot (.inr ?_)).1 level hsole
    simpa using h

end Scopes

end GuidedJourney
