import Mathlib.Data.List.Forall2
import Lexicon.Proofs.Scanner.Invariant
import Lexicon.Proofs.Scanner.Run

namespace Lexicon

structure Span (text : List Char) where
  start : Nat
  stop : Nat
  start_lt_stop : start < stop
  stop_le_length : stop ≤ text.length

def Span.piece {text : List Char} (span : Span text) : List Char :=
  (text.take span.stop).drop span.start

/-- The lexeme is a piece of the text, and its place is that of the beginning of the piece and of no
other offset. -/
structure Lexeme.Occupies {text : List Char} (lexeme : Lexeme) (span : Span text) : Prop where
  wellFormed : lexeme.WellFormed
  value : lexeme.value.toList = span.piece
  place : ∀ offset ≤ text.length,
    Position.behind (text.take offset) = lexeme.position ↔ offset = span.start

/-- The lexemes are pieces of the text up to a limit, one behind the other. -/
def CutWithin (text : List Char) (lexemes : List Lexeme) (limit : Nat) : Prop :=
  ∃ spans : List (Span text), List.Forall₂ Lexeme.Occupies lexemes spans ∧
    spans.Pairwise (·.stop ≤ ·.start) ∧ ∀ span ∈ spans, span.stop ≤ limit

section

variable {text : List Char} {lexemes : List Lexeme} {lexeme : Lexeme} {limit further : Nat}

theorem cutWithin_nil (text : List Char) (limit : Nat) : CutWithin text [] limit :=
  ⟨[], .nil, .nil, nofun⟩

theorem CutWithin.mono (h : CutWithin text lexemes limit) (hle : limit ≤ further) :
    CutWithin text lexemes further := by
  obtain ⟨spans, hoccupies, hordered, hlimit⟩ := h
  exact ⟨spans, hoccupies, hordered, fun span hm => Nat.le_trans (hlimit span hm) hle⟩

theorem CutWithin.concat {span : Span text} (h : CutWithin text lexemes span.start)
    (hoccupies : lexeme.Occupies span) : CutWithin text (lexemes ++ [lexeme]) span.stop := by
  obtain ⟨spans, hall, hordered, hlimit⟩ := h
  refine ⟨spans ++ [span], List.rel_append hall (.cons hoccupies .nil), ?_, ?_⟩
  · apply List.pairwise_append.2
    refine ⟨hordered, List.pairwise_singleton _ _, ?_⟩
    intro earlier hm other ho
    rw [List.mem_singleton.1 ho]
    exact hlimit earlier hm
  · intro other ho
    obtain ho | ho := List.mem_append.1 ho
    · exact Nat.le_trans (hlimit other ho) (Nat.le_of_lt span.start_lt_stop)
    · exact Nat.le_of_eq (congrArg Span.stop (List.mem_singleton.1 ho))

end

theorem state_of_category {state : State} {category : Category} (h : state.category = some category) :
    state = category.state := by
  cases state with
  | start | comment => cases h
  | digit | separator | identifier =>
    cases h
    rfl

theorem begins_of_enter {c : Char} {state : State} (h : transition .start (.of c) = .enter state) :
    ∃ category : Category, category.begins c = true ∧ state = category.state := by
  obtain ⟨category, hbegins⟩ | hblank | rfl | ho := CharClass.kinds c
  · rw [transition_start_of_begins hbegins] at h
    cases h
    exact ⟨category, hbegins, rfl⟩
  · rw [transition_start_of_blank hblank] at h
    cases h
  · cases h
  · rw [ho] at h
    cases h

namespace Scanner

/-- The lexeme being built begins at the origin, and all of the text since then is in hand. -/
structure Holds (scanner : Scanner) (text : List Char) (category : Category) (origin : Nat) : Prop where
  start : scanner.start = .behind (text.take origin)
  buffer : scanner.buffer.toList = (text.take scanner.offset).drop origin
  begins : ∃ c, text[origin]? = some c ∧ category.begins c = true
  origin_le : origin ≤ scanner.offset
  offset_le : scanner.offset ≤ text.length

/-- The lexemes found are pieces of the text, and so is the one being built, behind them. -/
structure Slices (scanner : Scanner) (text : List Char) : Prop where
  tracks : scanner.Tracks text
  between : scanner.state.category = none → CutWithin text scanner.lexemes.toList scanner.offset
  within : ∀ category, scanner.state.category = some category →
    ∃ origin, scanner.Holds text category origin ∧ CutWithin text scanner.lexemes.toList origin

variable {scanner next : Scanner} {text : List Char} {category : Category} {c : Char} {rest : List Char}

theorem slices_ofText (text : String) : (ofText text).Slices text.toList where
  tracks := tracks_ofText text
  between _ := cutWithin_nil _ _
  within _ := nofun

theorem Slices.cut (h : scanner.Slices text) :
    CutWithin text scanner.lexemes.toList scanner.offset := by
  cases hcategory : scanner.state.category with
  | none => exact h.between hcategory
  | some category =>
    obtain ⟨origin, hholds, hcut⟩ := h.within category hcategory
    exact hcut.mono hholds.origin_le

theorem slices_of_between (htracks : next.Tracks text) (hcategory : next.state.category = none)
    (hcut : CutWithin text next.lexemes.toList next.offset) : next.Slices text where
  tracks := htracks
  between _ := hcut
  within category h := by
    rw [hcategory] at h
    cases h

theorem Holds.origin_lt {origin : Nat} (h : scanner.Holds text category origin)
    (hb : scanner.buffer ≠ "") : origin < scanner.offset := by
  refine Nat.lt_of_not_le fun hle => hb ?_
  apply String.toList_eq_nil_iff.1
  rw [h.buffer]
  exact List.drop_eq_nil_of_le (Nat.le_trans (List.length_take_le _ _) hle)

theorem Holds.wellFormed {origin : Nat} (h : scanner.Holds text category origin)
    (htracks : scanner.Tracks text) (hcategory : scanner.state.category = some category)
    (hb : scanner.buffer ≠ "") :
    (⟨scanner.buffer, category, scanner.start⟩ : Lexeme).WellFormed := by
  obtain ⟨first, others, hvalue⟩ := List.exists_cons_of_ne_nil (mt String.toList_eq_nil_iff.1 hb)
  obtain ⟨c, hc, hbegins⟩ := h.begins
  have hfirst : some first = some c := by
    rw [← hc, ← List.getElem?_take_of_lt (h.origin_lt hb), ← List.head?_drop, ← h.buffer, hvalue,
      List.head?_cons]
  have hgoes : ∀ d ∈ first :: others, category.continues d = true := by
    intro d hd
    rw [← accepts_state, ← state_of_category hcategory]
    exact htracks.buffer d (hvalue ▸ hd)
  cases hfirst
  exact ⟨first, others, hvalue, hbegins, fun d hd => hgoes d (List.mem_cons_of_mem first hd)⟩

theorem Slices.cut_flushed (h : scanner.Slices text) (hcategory : scanner.state.category = some category)
    (hb : scanner.buffer ≠ "") :
    CutWithin text (scanner.flushed category).lexemes.toList scanner.offset := by
  obtain ⟨origin, hholds, hcut⟩ := h.within category hcategory
  let span : Span text := ⟨origin, scanner.offset, hholds.origin_lt hb, hholds.offset_le⟩
  have hoccupies : Lexeme.Occupies ⟨scanner.buffer, category, scanner.start⟩ span := by
    refine ⟨hholds.wellFormed h.tracks hcategory hb, hholds.buffer, fun offset hle => ?_⟩
    have hle' : origin ≤ text.length := Nat.le_trans hholds.origin_le hholds.offset_le
    rw [hholds.start]
    exact Position.behind_take_inj hle hle'
  rw [flushed, Array.toList_push]
  exact hcut.concat hoccupies

theorem slices_advance (h : scanner.Slices text) (hcategory : scanner.state.category = none) :
    scanner.advance.Slices text :=
  slices_of_between (tracks_advance h.tracks) hcategory ((h.between hcategory).mono (Nat.le_succ _))

theorem slices_shift (h : scanner.Slices text) (hrest : scanner.rest = c :: rest)
    (ha : scanner.state.accepts (.of c) = true) (htracks : (scanner.shift c).Tracks text) :
    (scanner.shift c).Slices text := by
  have hlt : scanner.offset < text.length := lt_length_of_rest h.tracks hrest
  refine ⟨htracks, ?_, ?_⟩
  · intro hcategory
    have hnone : scanner.state.category = none := hcategory
    rw [accepts_of_category_none hnone] at ha
    cases ha
  · intro category hcategory
    obtain ⟨origin, hholds, hcut⟩ := h.within category hcategory
    refine ⟨origin, ⟨hholds.start, ?_, hholds.begins, ?_, ?_⟩, hcut⟩
    · have hlen : origin ≤ (text.take scanner.offset).length := by
        rw [List.length_take, Nat.min_eq_left hholds.offset_le]
        exact hholds.origin_le
      simp only [shift, advance, String.toList_push, List.take_add_one,
        getElem?_of_rest h.tracks hrest, Option.toList_some, List.drop_append_of_le_length hlen,
        hholds.buffer]
    · exact Nat.le_succ_of_le hholds.origin_le
    · exact hlt

theorem slices_enter (h : scanner.Slices text) (hrest : scanner.rest = c :: rest)
    (hstate : scanner.state = .start) {state : State} (ht : transition .start (.of c) = .enter state)
    (htracks : Tracks { scanner with start := scanner.position, state } text) :
    Slices { scanner with start := scanner.position, state } text := by
  obtain ⟨category, hbegins, rfl⟩ := begins_of_enter ht
  have hnone : scanner.state.category = none := by
    rw [hstate]
    rfl
  have hlt := lt_length_of_rest h.tracks hrest
  have hsome := category_state hbegins
  refine ⟨htracks, fun hn => ?_, fun other ho => ?_⟩
  · cases hsome.symm.trans hn
  · obtain rfl : category = other := Option.some.inj (hsome.symm.trans ho)
    refine ⟨scanner.offset, ⟨?_, ?_, ⟨c, getElem?_of_rest h.tracks hrest, hbegins⟩, Nat.le_refl _,
      Nat.le_of_lt hlt⟩, h.between hnone⟩
    · rw [← Position.reached_eq_behind (Nat.le_of_lt hlt)]
      exact h.tracks.position
    · have hb : scanner.buffer = "" := buffer_of_category_none h.tracks hnone
      have hnil : (text.take scanner.offset).drop scanner.offset = [] :=
        List.drop_eq_nil_of_le (List.length_take_le _ _)
      rw [hb, hnil]
      rfl

theorem buffer_of_emit (h : scanner.Slices text) (hrest : scanner.rest = c :: rest)
    (hcategory : scanner.state.category = some category)
    (hs : scanner.state.accepts (.of c) = false) : scanner.buffer ≠ "" := by
  intro hb
  obtain ⟨origin, hholds, -⟩ := h.within category hcategory
  obtain ⟨first, hfirst, hbegins⟩ := hholds.begins
  have hpiece := hholds.buffer
  rw [hb] at hpiece
  have hle := List.drop_eq_nil_iff.1 hpiece.symm
  rw [List.length_take, Nat.min_eq_left hholds.offset_le] at hle
  have horigin : origin = scanner.offset := Nat.le_antisymm hholds.origin_le hle
  rw [horigin, getElem?_of_rest h.tracks hrest] at hfirst
  cases hfirst
  rw [state_of_category hcategory, accepts_state, Category.continues_of_begins hbegins] at hs
  cases hs

theorem slices_step (h : scanner.Slices text) (hstep : scanner.step = .ok () next) :
    next.Slices text := by
  have htracks := tracks_step h.tracks hstep
  obtain ⟨c, rest, hrest, hm⟩ := step_cases hstep
  cases hm with
  | skip hcategory hs =>
    exact slices_of_between htracks hs ((h.between hcategory).mono (Nat.le_succ _))
  | shift ha => exact slices_shift h hrest ha htracks
  | enter hstate ht => exact slices_enter h hrest hstate ht htracks
  | emit hcategory hs =>
    exact slices_of_between htracks rfl (h.cut_flushed hcategory (buffer_of_emit h hrest hcategory hs))

theorem slices_finish (h : scanner.Slices text) : scanner.finish.Slices text := by
  have htracks := tracks_finish h.tracks
  by_cases hb : scanner.buffer = ""
  · rw [finish_of_empty hb] at htracks ⊢
    exact slices_of_between htracks rfl h.cut
  · obtain ⟨hnone, -⟩ | ⟨category, hcategory, hf⟩ := finish_cases scanner
    · exact absurd (hnone.elim id (buffer_of_category_none h.tracks)) hb
    · rw [hf] at htracks ⊢
      exact slices_of_between htracks rfl (h.cut_flushed hcategory hb)

/-- The call does not break into a lexeme that is being built. -/
def Spares (scanner : Scanner) : Call → Prop
  | .advance => scanner.state = .start ∨ scanner.state = .comment
  | .emit => False
  | .step | .finish | .error | .scan _ => True

def SparesAll (scanner : Scanner) : List Call → Prop
  | [] => True
  | call :: calls => scanner.Spares call ∧ (scanner.perform call).2.SparesAll calls

instance (scanner : Scanner) (call : Call) : Decidable (scanner.Spares call) :=
  match call with
  | .advance => inferInstanceAs (Decidable (_ ∨ _))
  | .emit => .isFalse id
  | .step | .finish | .error | .scan _ => .isTrue trivial

def decidableSparesAll (scanner : Scanner) : (calls : List Call) → Decidable (scanner.SparesAll calls)
  | [] => .isTrue trivial
  | call :: calls =>
    have := (scanner.perform call).2.decidableSparesAll calls
    inferInstanceAs (Decidable (_ ∧ _))

instance (scanner : Scanner) (calls : List Call) : Decidable (scanner.SparesAll calls) :=
  scanner.decidableSparesAll calls

theorem slices_perform (h : scanner.Slices text) {call : Call} (hc : scanner.Spares call) :
    (scanner.perform call).2.Slices text := by
  refine perform_keeps slices_step ?_ slices_finish h call ?_ ?_
  · intro scanner h hstate
    exact slices_advance h (category_eq_none_iff.2 (.inl hstate))
  · rintro rfl
    exact slices_advance h (category_eq_none_iff.2 hc)
  · rintro rfl
    exact hc.elim

theorem slices_run (h : scanner.Slices text) (calls : List Call) (hc : scanner.SparesAll calls) :
    (scanner.run calls).Slices text := by
  induction calls generalizing scanner with
  | nil => exact h
  | cons call calls ih => exact ih (slices_perform h hc.1) hc.2

/-- However a scanner is driven, as long as no call breaks into a lexeme, the lexemes that it finds are
pieces of the text, each at its place, and one behind the other. -/
theorem lexemes_occupy (text : String) (calls : List Call) (h : (ofText text).SparesAll calls) :
    ∃ spans : List (Span text.toList),
      List.Forall₂ Lexeme.Occupies ((ofText text).run calls).lexemes.toList spans ∧
        spans.Pairwise (·.stop ≤ ·.start) := by
  obtain ⟨spans, hoccupies, hordered, -⟩ := (slices_run (slices_ofText text) calls h).cut
  exact ⟨spans, hoccupies, hordered⟩

/-- A lexeme is ended behind its first character, and the next one before it has got any, which leaves
nothing behind. -/
theorem lexemes_occupy_interrupted :
    let calls : List Call := [.step, .step, .finish, .step, .finish, .advance, .step, .step, .scan true,
      .step, .advance, .scan false, .advance, .error]
    let lexemes : List Lexeme :=
      [⟨"a", .identifier, ⟨1, 1⟩⟩, ⟨"12", .literal, ⟨1, 3⟩⟩, ⟨"c", .identifier, ⟨1, 8⟩⟩]
    (ofText "ab12 @ c").SparesAll calls ∧ ((ofText "ab12 @ c").run calls).lexemes.toList = lexemes ∧
      ∃ spans : List (Span "ab12 @ c".toList),
        List.Forall₂ Lexeme.Occupies lexemes spans ∧ spans.Pairwise (·.stop ≤ ·.start) := by
  intro calls lexemes
  have hspares : (ofText "ab12 @ c").SparesAll calls := by decide +kernel
  have hfound : ((ofText "ab12 @ c").run calls).lexemes.toList = lexemes := by decide +kernel
  have hoccupy := lexemes_occupy "ab12 @ c" calls hspares
  rw [hfound] at hoccupy
  exact ⟨hspares, hfound, hoccupy⟩

end Scanner

end Lexicon
