import GuidedJourney.Proofs.ValidJourney
import GuidedJourney.Text.Word
import Mathlib.Data.List.TakeWhile

namespace GuidedJourney

section Stop

variable {α : Type} {p : α → Bool} {xs ys : List α}

theorem takeWhile_until (hxs : ∀ x ∈ xs, p x = true) (hys : ∀ y ∈ ys.head?, p y = false) :
    (xs ++ ys).takeWhile p = xs := by
  rw [List.takeWhile_append_of_pos hxs]
  cases ys with
  | nil => simp
  | cons y ys => simp [hys y rfl]

theorem dropWhile_until (hxs : ∀ x ∈ xs, p x = true) (hys : ∀ y ∈ ys.head?, p y = false) :
    (xs ++ ys).dropWhile p = ys := by
  rw [List.dropWhile_append_of_pos hxs]
  cases ys with
  | nil => rfl
  | cons y ys => simp [hys y rfl]

end Stop

namespace Address

def isPlain (c : Char) : Bool := !"/?#;:\t\n\r".toList.contains c

def isUnbroken (c : Char) : Bool := c != '\t' && c != '\n' && c != '\r'

/-- An absolute address around the last segment of its path: what stands before it, and after it maybe
some slashes and a `rest`, which is a query or a fragment. -/
structure Site where
  letter : Char
  scheme : List Char
  host : List Char
  folders : List (List Char)
  slashes : Nat
  rest : List Char
  lettered : letter.isAlpha = true
  schemed : ∀ c ∈ scheme, isSchemeChar c = true
  hosted : host ≠ [] ∧ isHost host = true ∧ ∀ c ∈ host, isHostChar c = true
  unbroken : ∀ c ∈ host ++ folders.flatten, isUnbroken c = true
  foldered : ∀ c ∈ folders.flatten, c ∉ ['?', '#']
  ending : ∀ c ∈ rest.head?, c ∈ ['?', '#']

namespace Site

def path (p : Site) (segment : List Char) : List Char :=
  p.folders.flatMap ('/' :: ·) ++ '/' :: (segment ++ List.replicate p.slashes '/')

def front (p : Site) (segment : List Char) : List Char :=
  p.letter :: p.scheme ++ ':' :: '/' :: '/' :: (p.host ++ p.path segment)

def text (p : Site) (segment : List Char) : List Char := p.front segment ++ p.rest

end Site

end Address

/-- The ways to write a deeplink to an id: the id alone, or an absolute address whose last segment it
is. -/
inductive Spells (id : String) : String → Prop
  | bare : Spells id id
  | address (p : Address.Site) : Spells id (String.ofList (p.text id.toList))

namespace Address

variable {segment : List Char}

theorem isPlain_notMem (h : ∀ c ∈ segment, isPlain c = true) {c : Char} (hc : isPlain c = false) :
    c ∉ segment := by
  intro hmem
  rw [h c hmem] at hc
  cases hc

theorem clean_cons {c : Char} (h : 65 ≤ c.toNat) (cs : List Char) :
    clean (c :: cs) = (c :: cs).filter isUnbroken := by
  rw [clean, List.dropWhile_cons_of_neg (by simp; omega)]
  rfl

theorem isSchemeChar_notMem {cs : List Char} (h : ∀ c ∈ cs, isSchemeChar c = true) {c : Char}
    (hc : isSchemeChar c = false) : c ∉ cs := by
  intro hmem
  rw [h c hmem] at hc
  cases hc

theorem isUnbroken_of_isSchemeChar {c : Char} (h : isSchemeChar c = true) : isUnbroken c = true := by
  by_contra hbroken
  have hbreak : c = '\t' ∨ c = '\n' ∨ c = '\r' := by
    simp [isUnbroken] at hbroken
    tauto
  rcases hbreak with rfl | rfl | rfl <;> revert h <;> decide

namespace Site

variable (p : Site)

theorem mem_path {c : Char} (h : c ∈ p.path segment) : c = '/' ∨ c ∈ p.folders.flatten ∨ c ∈ segment := by
  simp only [path, List.mem_append, List.mem_flatMap, List.mem_cons, List.mem_replicate] at h
  rcases h with ⟨folder, hfolder, hc | hc⟩ | hc | hc | hc
  · exact .inl hc
  · exact .inr (.inl (List.mem_flatten.mpr ⟨folder, hfolder, hc⟩))
  · exact .inl hc
  · exact .inr (.inr hc)
  · exact .inl hc.2

theorem path_head (segment : List Char) : ∃ cs, p.path segment = '/' :: cs := by
  unfold path
  cases p.folders with
  | nil => exact ⟨_, rfl⟩
  | cons folder folders => exact ⟨_, rfl⟩

theorem lettered_scheme : ∀ c ∈ p.letter :: p.scheme, isSchemeChar c = true := by
  refine List.forall_mem_cons.mpr ⟨?_, p.schemed⟩
  have hletter := p.lettered
  simp [isSchemeChar, Char.isAlphanum, hletter]

theorem front_unbroken (h : ∀ c ∈ segment, isPlain c = true) :
    ∀ c ∈ p.front segment, isUnbroken c = true := by
  have hsegment : ∀ c ∈ segment, isUnbroken c = true := by
    intro c hc
    have hplain := h c hc
    simp only [isPlain, isUnbroken] at hplain ⊢
    simp at hplain ⊢
    tauto
  intro c hc
  rcases List.mem_append.mp hc with hc | hc
  · exact isUnbroken_of_isSchemeChar (p.lettered_scheme c hc)
  · simp only [List.mem_cons, List.mem_append] at hc
    rcases hc with rfl | rfl | rfl | hc | hc
    · decide
    · decide
    · decide
    · exact p.unbroken c (List.mem_append_left _ hc)
    · rcases p.mem_path hc with rfl | hc | hc
      · decide
      · exact p.unbroken c (List.mem_append_right _ hc)
      · exact hsegment c hc

theorem clean_text (h : ∀ c ∈ segment, isPlain c = true) :
    ∃ rest, (∀ c ∈ rest.head?, c ∈ ['?', '#']) ∧ clean (p.text segment) = p.front segment ++ rest := by
  refine ⟨p.rest.filter isUnbroken, ?_, ?_⟩
  · have hending := p.ending
    cases hrest : p.rest with
    | nil => simp
    | cons c cs =>
        rw [hrest] at hending
        have hc : c = '?' ∨ c = '#' := by simpa using hending c rfl
        have hkept : isUnbroken c = true := by rcases hc with rfl | rfl <;> decide
        rw [List.filter_cons_of_pos hkept]
        exact hending
  · have hclean : clean (p.text segment) = (p.text segment).filter isUnbroken :=
      clean_cons (Text.isAlpha_bounds p.lettered).1 _
    rw [hclean, text, List.filter_append, List.filter_eq_self.mpr (p.front_unbroken h)]

theorem ofText_text (h : ∀ c ∈ segment, isPlain c = true) :
    ofText (p.text segment) = .ok ⟨(p.letter :: p.scheme).map Char.toLower, p.host, p.path segment⟩ := by
  obtain ⟨rest, hrest, hclean⟩ := p.clean_text h
  have hstop : ∀ c ∈ rest.head?, (c != '?' && c != '#') = false := by
    intro c hc
    have hmark : c = '?' ∨ c = '#' := by simpa using hrest c hc
    rcases hmark with rfl | rfl <;> decide
  have hscheme : cutScheme (p.front segment ++ rest) =
      ((p.letter :: p.scheme).map Char.toLower, '/' :: '/' :: (p.host ++ (p.path segment ++ rest))) := by
    have hcut := Text.cut_append (isSchemeChar_notMem p.lettered_scheme (c := ':') (by decide))
      ('/' :: '/' :: (p.host ++ (p.path segment ++ rest)))
    have hall : p.scheme.all isSchemeChar = true := List.all_eq_true.mpr p.schemed
    have hfront : p.front segment ++ rest =
        p.letter :: p.scheme ++ ':' :: '/' :: '/' :: (p.host ++ (p.path segment ++ rest)) := by
      simp [front]
    rw [hfront, cutScheme, hcut]
    simp [p.lettered, hall]
  have hslash : ∀ c ∈ (p.path segment ++ rest).head?, isHostChar c = false := by
    obtain ⟨cs, hpath⟩ := p.path_head segment
    rw [hpath]
    simp [isHostChar]
  have hpath : ∀ c ∈ p.path segment, (c != '?' && c != '#') = true := by
    intro c hc
    rcases p.mem_path hc with rfl | hc | hc
    · decide
    · simpa using p.foldered c hc
    · have hquery := isPlain_notMem h (c := '?') (by decide)
      have hfragment := isPlain_notMem h (c := '#') (by decide)
      simp only [Bool.and_eq_true, bne_iff_ne]
      exact ⟨fun he => hquery (he ▸ hc), fun he => hfragment (he ▸ hc)⟩
  obtain ⟨-, hreadable, hhost⟩ := p.hosted
  simp only [ofText, hclean, hscheme, takeWhile_until hhost hslash, dropWhile_until hhost hslash,
    takeWhile_until hpath hstop, hreadable, if_true]

end Site

theorem segments_eq (a : Address) (h : ∀ s ∈ (Text.split '/' a.path).getLast?, ';' ∉ s) :
    a.segments = Text.split '/' a.path := by
  unfold segments
  dsimp only
  split
  · obtain ⟨front, last, hsplit⟩ : ∃ front last, Text.split '/' a.path = front ++ [last] := by
      obtain ⟨first, rest, hsplit⟩ := Text.split_cons '/' a.path
      exact ⟨_, _, (List.dropLast_append_getLast (hsplit ▸ List.cons_ne_nil first rest)).symm⟩
    rw [hsplit] at h ⊢
    rw [List.dropLast_concat, List.getLast?_concat, Option.map_some,
      Text.cut_of_notMem (h last List.getLast?_concat)]
    rfl
  · rfl

theorem split_replicate (n : Nat) : Text.split '/' (List.replicate n '/') = List.replicate (n + 1) [] := by
  induction n with
  | zero => rfl
  | succ n ih =>
      have hsplit : Text.split '/' ([] ++ '/' :: List.replicate n '/') = _ := Text.split_append _ _
      rw [ih] at hsplit
      exact hsplit

theorem split_slashes (h : '/' ∉ segment) (n : Nat) :
    Text.split '/' (segment ++ List.replicate n '/') = segment :: List.replicate n [] := by
  cases n with
  | zero => rw [List.replicate_zero, List.append_nil, Text.split_of_notMem h]; rfl
  | succ n => rw [List.replicate_succ, Text.split_append, Text.split_of_notMem h, split_replicate]; rfl

theorem Site.segments_text (p : Site) {a : Address} (ha : a.path = p.path segment) (hne : segment ≠ [])
    (h : ∀ c ∈ segment, isPlain c = true) :
    (a.segments.filter (!·.isEmpty)).getLast? = some segment := by
  have hsplit : Text.split '/' a.path =
      Text.split '/' (p.folders.flatMap ('/' :: ·)) ++ segment :: List.replicate p.slashes [] := by
    rw [ha, path, Text.split_append, split_slashes (isPlain_notMem h (by decide))]
  have hlast : ∀ s ∈ (Text.split '/' a.path).getLast?, ';' ∉ s := by
    intro s hs
    rw [hsplit, List.getLast?_append_cons] at hs
    rcases List.mem_cons.mp (List.mem_of_getLast? hs) with rfl | hs
    · exact isPlain_notMem h (by decide)
    · rw [(List.mem_replicate.mp hs).2]
      exact List.not_mem_nil
  have hnone : (List.replicate p.slashes ([] : List Char)).filter (!·.isEmpty) = [] :=
    List.filter_eq_nil_iff.mpr fun s hs => by simp [(List.mem_replicate.mp hs).2]
  rw [segments_eq a hlast, hsplit, List.filter_append, List.filter_cons_of_pos (by simpa using hne), hnone,
    List.getLast?_concat]

theorem ofText_plain {cs : List Char} (h : ∀ c ∈ cs, isPlain c = true) :
    ∃ path, ofText cs = .ok ⟨[], [], path⟩ := by
  have hclean : ∀ c ∈ clean cs, isPlain c = true := fun c hc =>
    h c (List.dropWhile_subset _ (List.mem_filter.mp hc).1)
  have hscheme : cutScheme (clean cs) = ([], clean cs) := by
    rw [cutScheme, Text.cut_of_notMem (isPlain_notMem hclean (by decide))]
    cases clean cs <;> rfl
  have hslash : '/' ∉ clean cs := isPlain_notMem hclean (by decide)
  rw [ofText, hscheme]
  dsimp only
  split
  · rename_i r hr
    exact absurd (hr ▸ List.mem_cons_self) hslash
  · exact ⟨_, rfl⟩

end Address

theorem Spells.screenIdOf_eq {id d : String} (h : Spells id d) (hid : id ≠ "")
    (hplain : ∀ c ∈ id.toList, Address.isPlain c = true) : screenIdOf d = .ok (some id) := by
  cases h with
  | bare =>
      obtain ⟨path, hpath⟩ := Address.ofText_plain hplain
      rw [screenIdOf, hpath, if_neg (by simpa using hid)]
      rfl
  | address p =>
      have hne : id.toList ≠ [] := by simpa using hid
      have htext : (String.ofList (p.text id.toList)).isEmpty = false := by
        simp [Address.Site.text, Address.Site.front]
      have habsolute : (⟨(p.letter :: p.scheme).map Char.toLower, p.host, p.path id.toList⟩ :
          Address).isAbsolute = true := by
        simp [Address.isAbsolute, p.hosted.1]
      have hlast := p.segments_text (a := ⟨(p.letter :: p.scheme).map Char.toLower, p.host,
        p.path id.toList⟩) rfl hne hplain
      rw [screenIdOf, htext, if_neg Bool.false_ne_true, String.toList_ofList, p.ofText_text hplain]
      change (if Address.isAbsolute _ = true then pure _ else _ : Except Fault _) = _
      rw [habsolute, if_pos rfl, hlast]
      simp
      rfl

namespace Run

variable {r : Run} {a : Agent} {s : Screen} {i : Nat} {next prev : String}

/-- Beside a screen of an agent is the one after it or before it, if there is one. -/
theorem neighbour?_at (hids : TellApart (a.screens.map Screen.id)) (ha : r.agent? = some a)
    (hs : a.screens[i]? = some s) (hon : r.screenId = some s.id) :
    r.neighbour? true = a.screens[i + 1]? ∧
      r.neighbour? false = if i = 0 then none else a.screens[i - 1]? := by
  have hid : s.id ≠ "" := fun he => hids.given (he ▸ List.mem_map_of_mem (List.mem_of_getElem? hs))
  have hindex : a.screenIndex? s.id = some i := (findIdx?_key_iff hids.once).mpr ⟨s, hs, rfl⟩
  simp [neighbour?, ha, hon, hid, hindex]

theorem neighbour?_elsewhere (ha : r.agent? = some a) (helse : ∀ s ∈ a.screens, r.screenId ≠ some s.id)
    (forward : Bool) : r.neighbour? forward = none := by
  cases hon : r.screenId with
  | none => simp [neighbour?, ha, hon]
  | some id =>
      have hindex : a.screenIndex? id = none :=
        List.findIdx?_eq_none_iff.mpr fun s hs => by simpa using fun he : s.id = id => helse s hs (he ▸ hon)
      simp [neighbour?, ha, hon, hindex]

theorem target?_next (h : Spells nextScreen next) (r : Run) : r.target? next = .ok (r.neighbour? true) := by
  rw [target?, h.screenIdOf_eq (by decide) (List.all_eq_true.mp (by decide +kernel))]
  rfl

theorem target?_prev (h : Spells prevScreen prev) (r : Run) : r.target? prev = .ok (r.neighbour? false) := by
  rw [target?, h.screenIdOf_eq (by decide) (List.all_eq_true.mp (by decide +kernel))]
  rfl

def follow (r : Run) (deeplink : String) : Option Run :=
  match r.target? deeplink with
  | .ok (some s) => some (r.arrive s (r.stack ++ [s.id]))
  | _ => none

def followed (deeplink : String) : Nat → Run → Option Run
  | 0, r => some r
  | n + 1, r => (r.follow deeplink).bind (followed deeplink n)

theorem position_unique (hids : TellApart (a.screens.map Screen.id)) {k : Nat}
    (hi : a.screens[i]? = some s) (hk : a.screens[k]? = some s) : i = k := by
  have at_i : a.screenIndex? s.id = some i := (findIdx?_key_iff hids.once).mpr ⟨s, hi, rfl⟩
  have at_k : a.screenIndex? s.id = some k := (findIdx?_key_iff hids.once).mpr ⟨s, hk, rfl⟩
  exact Option.some.inj (at_i.symm.trans at_k)

theorem beside_iff (hids : TellApart (a.screens.map Screen.id)) {k : Nat} {s' : Screen}
    (hi : a.screens[i]? = some s) (hk : a.screens[k]? = some s') :
    a.screens[i + 1]? = some s' ↔ (if k = 0 then none else a.screens[k - 1]?) = some s := by
  constructor
  · intro h
    rw [position_unique hids hk h, if_neg (Nat.succ_ne_zero i), Nat.add_sub_cancel]
    exact hi
  · intro h
    split at h
    · cases h
    · rename_i hne
      rw [position_unique hids hi h, Nat.sub_add_cancel (Nat.pos_of_ne_zero hne)]
      exact hk

theorem screen?_at (hids : TellApart (a.screens.map Screen.id)) (ha : r.agent? = some a)
    (hs : s ∈ a.screens) (hon : r.screenId = some s.id) : r.screen? = some s := by
  have hid : s.id ≠ "" := fun he => hids.given (he ▸ List.mem_map_of_mem hs)
  have hfind : a.screen? s.id = some s := find?_key hids.once hs
  simp [screen?, hon, hid, findScreen?, ha, hfind]

/-- From the screen at position `i` on, the screens of the agent follow in their order. -/
theorem followed_screen? (hids : TellApart (a.screens.map Screen.id)) (hnext : Spells nextScreen next)
    (ha : r.agent? = some a) (hs : a.screens[i]? = some s) (hon : r.screenId = some s.id) (n : Nat) :
    (r.followed next n).bind screen? = a.screens[i + n]? := by
  induction n generalizing r i s with
  | zero =>
      rw [followed, Option.bind_some, screen?_at hids ha (List.mem_of_getElem? hs) hon, Nat.add_zero, hs]
  | succ n ih =>
      have htarget := target?_next hnext r
      rw [(neighbour?_at hids ha hs hon).1] at htarget
      rw [followed, follow, htarget]
      cases hs' : a.screens[i + 1]? with
      | none =>
          have hlength := List.getElem?_eq_none_iff.mp hs'
          exact (List.getElem?_eq_none (by omega)).symm
      | some s' =>
          have hrest := ih (r := r.arrive s' (r.stack ++ [s'.id])) ha hs' rfl
          rw [Nat.add_right_comm] at hrest
          exact hrest

/-- In a run of a valid journey, on the screen at position `i` of its agent's, however the deeplinks are
written: the one to the next screen leads to the screen at position `i + 1` if there is one, and nowhere
otherwise, and the one to the previous screen to that at position `i - 1`, or nowhere from the first. So
each leads back where the other has come from, and who follows the first from the first screen comes upon
every screen of the agent exactly once, in their order. On a screen that is not the agent's both lead
nowhere. -/
theorem target_neighbours (hvalid : r.journey.issues = .ok []) (ha : r.agent? = some a)
    (hnext : Spells nextScreen next) (hprev : Spells prevScreen prev) :
    (∀ i s, a.screens[i]? = some s → r.screenId = some s.id →
      r.target? next = .ok a.screens[i + 1]? ∧
      r.target? prev = .ok (if i = 0 then none else a.screens[i - 1]?)) ∧
    (∀ s ∈ a.screens, ∀ s' ∈ a.screens, ∀ stack stack',
      (r.arrive s stack).target? next = .ok (some s') ↔
        (r.arrive s' stack').target? prev = .ok (some s)) ∧
    (∀ s, a.screens.head? = some s → r.screenId = some s.id →
      (∀ n, (r.followed next n).bind screen? = a.screens[n]?) ∧
      ∀ s' ∈ a.screens, ∃! n, (r.followed next n).bind screen? = some s') ∧
    ((∀ s ∈ a.screens, r.screenId ≠ some s.id) →
      r.target? next = .ok none ∧ r.target? prev = .ok none) := by
  have hids := ((Journey.issues_eq_nil_iff.mp hvalid).agents a (agent_mem ha)).screens
  refine ⟨fun i s hs hon => ?_, fun s hs s' hs' stack stack' => ?_, fun s hs hon => ?_, fun helse => ?_⟩
  · obtain ⟨hforward, hback⟩ := neighbour?_at hids ha hs hon
    rw [target?_next hnext, target?_prev hprev, hforward, hback]
    exact ⟨rfl, rfl⟩
  · obtain ⟨i, hi⟩ := List.mem_iff_getElem?.mp hs
    obtain ⟨k, hk⟩ := List.mem_iff_getElem?.mp hs'
    have hforward := (neighbour?_at (r := r.arrive s stack) hids ha hi rfl).1
    have hback := (neighbour?_at (r := r.arrive s' stack') hids ha hk rfl).2
    rw [target?_next hnext, target?_prev hprev, hforward, hback, Except.ok.injEq, Except.ok.injEq]
    exact beside_iff hids hi hk
  · have hall : ∀ n, (r.followed next n).bind screen? = a.screens[n]? := by
      intro n
      rw [List.head?_eq_getElem?] at hs
      rw [followed_screen? hids hnext ha hs hon, Nat.zero_add]
    refine ⟨hall, fun s' hs' => ?_⟩
    obtain ⟨n, hn⟩ := List.mem_iff_getElem?.mp hs'
    exact ⟨n, (hall n).trans hn, fun k hk => position_unique hids ((hall k).symm.trans hk) hn⟩
  · rw [target?_next hnext, target?_prev hprev, neighbour?_elsewhere ha helse,
      neighbour?_elsewhere ha helse]
    exact ⟨rfl, rfl⟩

end Run

namespace Journey.Duet

def run : Run where
  id := "duet"
  journey
  globals := [screen "attic"]
  agentId := some "guide"
  screenId := some "hall"
  logLimit := 500

def site : Address.Site where
  letter := 'h'
  scheme := "ttps".toList
  host := "links.example.com".toList
  folders := ["duet".toList]
  slashes := 1
  rest := "?via=bell".toList
  lettered := rfl
  schemed := List.all_eq_true.mp (by decide +kernel)
  hosted := ⟨by decide, by decide +kernel, List.all_eq_true.mp (by decide +kernel)⟩
  unbroken := List.all_eq_true.mp (by decide +kernel)
  foldered := by simp
  ending := by simp

/-- The way from the hall is on into the garden, and not back; in the attic there is no way on. -/
theorem target_beside :
    let next := "https://links.example.com/duet/next-screen/?via=bell"
    journey.issues = .ok [] ∧ run.agent? = some guide ∧ Spells nextScreen next ∧
    run.target? next = .ok (some (screen "garden")) ∧
    run.target? "prev-screen" = .ok none ∧
    (∃! n, (run.followed next n).bind Run.screen? = some (screen "garden")) ∧
    { run with screenId := some "attic" }.target? next = .ok none := by
  intro next
  have hclear : journey.issues = .ok [] := issues_eq_nil_iff.mpr valid
  have hagent : run.agent? = some guide := rfl
  have hnext : Spells nextScreen next := .address site
  obtain ⟨hbeside, -, hall, -⟩ := Run.target_neighbours (r := run) hclear hagent hnext .bare
  obtain ⟨-, -, -, helse⟩ := Run.target_neighbours (r := { run with screenId := some "attic" }) hclear
    hagent hnext .bare
  obtain ⟨hforward, hback⟩ := hbeside 0 (screen "hall") rfl rfl
  exact ⟨hclear, hagent, hnext, hforward, hback,
    (hall (screen "hall") rfl rfl).2 (screen "garden") (by simp [guide, agent]), (helse (by decide)).1⟩

end Journey.Duet

end GuidedJourney
