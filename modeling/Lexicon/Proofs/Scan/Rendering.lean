import Mathlib.Data.List.Chain
import Lexicon.Proofs.Scan.FirstError

namespace Lexicon

def Lexeme.content (lexeme : Lexeme) : String × Category :=
  (lexeme.value, lexeme.category)

theorem Lexeme.exists_of_contents {lexemes others : List Lexeme}
    (h : lexemes.map content = others.map content) {lexeme : Lexeme} (hm : lexeme ∈ lexemes) :
    ∃ other ∈ others, lexeme.value = other.value ∧ lexeme.category = other.category := by
  have hcontent : lexeme.content ∈ others.map content := h ▸ List.mem_map_of_mem hm
  obtain ⟨other, ho, hsame⟩ := List.mem_map.1 hcontent
  obtain ⟨hvalue, hcategory⟩ := Prod.mk.inj hsame
  exact ⟨other, ho, hvalue.symm, hcategory.symm⟩

structure Gap where
  text : String
  blank : ∀ c ∈ text.toList, Text.isBlank c = true

structure Piece where
  lexeme : Lexeme
  wellFormed : lexeme.WellFormed
  gap : Gap

namespace Piece

def written (piece : Piece) : String :=
  piece.lexeme.value ++ piece.gap.text

def render (lead : Gap) (pieces : List Piece) : String :=
  lead.text ++ String.join (pieces.map written)

/-- There is a gap between the two lexemes, or the second begins with nothing that the first goes on
with. -/
def Parts (piece next : Piece) : Prop :=
  piece.gap.text = "" → piece.lexeme.category.EndsBefore next.lexeme.value.toList

def chars (pieces : List Piece) : List Char :=
  pieces.flatMap fun piece => piece.lexeme.value.toList ++ piece.gap.text.toList

theorem toList_render (lead : Gap) (pieces : List Piece) :
    (render lead pieces).toList = lead.text.toList ++ chars pieces := by
  simp [render, chars, written, String.toList_join, List.flatMap_map]

theorem chars_cons (piece : Piece) (pieces : List Piece) :
    chars (piece :: pieces) =
      piece.lexeme.value.toList ++ (piece.gap.text.toList ++ chars pieces) := by
  rw [chars, List.flatMap_cons, List.append_assoc, chars]

theorem head_chars (piece : Piece) (pieces : List Piece) :
    (chars (piece :: pieces)).head? = piece.lexeme.value.toList.head? := by
  rw [chars_cons]
  exact List.head?_append_of_ne_nil _ piece.wellFormed.toList_ne_nil

theorem endsBefore_chars (piece : Piece) (pieces : List Piece) :
    piece.lexeme.category.EndsBefore (piece.gap.text.toList ++ chars pieces) ↔
      ∀ next ∈ pieces.head?, piece.Parts next := by
  cases hgap : piece.gap.text.toList with
  | nil =>
    have hnone : piece.gap.text = "" := String.toList_eq_nil_iff.1 hgap
    cases pieces with
    | nil => exact ⟨fun _ => nofun, fun _ => nofun⟩
    | cons next pieces =>
      simp only [Category.EndsBefore, List.nil_append, head_chars, List.head?_cons, Option.mem_def,
        Option.some.injEq, forall_eq', Parts, hnone, forall_const]
  | cons c blanks =>
    have hne : piece.gap.text ≠ "" := by
      intro he
      rw [he] at hgap
      cases hgap
    have hc : Text.isBlank c = true := piece.gap.blank c (hgap ▸ List.mem_cons_self)
    refine ⟨fun _ _ _ he => absurd he hne, fun _ d hd => ?_⟩
    cases hd
    exact piece.lexeme.category.not_continues_of_blank hc

end Piece

/-- Behind this beginning, the text is laid out in lexemes of the given contents without an error. -/
def Reads (before text : List Char) (contents : List (String × Category)) : Prop :=
  ∃ lexemes, Layout before text lexemes [] ∧ lexemes.map Lexeme.content = contents

section

variable {before text : List Char} {contents : List (String × Category)}

theorem reads_gap {blanks : List Char} (hblank : ∀ c ∈ blanks, Text.isBlank c = true) :
    Reads before (blanks ++ text) contents ↔ Reads (before ++ blanks) text contents :=
  ⟨fun ⟨lexemes, h, hc⟩ => ⟨lexemes, h.of_gap hblank, hc⟩,
    fun ⟨lexemes, h, hc⟩ => ⟨lexemes, h.gap hblank, hc⟩⟩

/-- A text that begins with the characters of a lexeme reads as that lexeme just if they end it. -/
theorem reads_lexeme {lexeme : Lexeme} (hwell : lexeme.WellFormed) :
    Reads before (lexeme.value.toList ++ text) (lexeme.content :: contents) ↔
      lexeme.category.EndsBefore text ∧ Reads (before ++ lexeme.value.toList) text contents := by
  constructor
  · rintro ⟨lexemes, h, hcontents⟩
    obtain ⟨first, others, hvalue, hbegins, -⟩ := hwell
    rw [hvalue, List.cons_append] at h
    obtain ⟨found, rest, others', htext, rfl, hend, hrest⟩ := h.of_begins hbegins
    obtain ⟨hcontent, hcontents⟩ := List.cons.inj hcontents
    obtain ⟨hsame, hcategory⟩ := Prod.mk.inj hcontent
    rw [← List.cons_append, ← hvalue, hsame, List.append_cancel_left_eq] at htext
    rw [hcategory, ← htext] at hend
    rw [hsame, ← htext] at hrest
    exact ⟨hend, others', hrest, hcontents⟩
  · rintro ⟨hend, lexemes, h, hcontents⟩
    let placed : Lexeme := { lexeme with position := .behind before }
    have hplaced : placed.WellFormed := hwell
    refine ⟨placed :: lexemes, .lexeme hplaced hend rfl h, ?_⟩
    rw [List.map_cons, hcontents]
    rfl

theorem reads_pieces (before : List Char) (pieces : List Piece) :
    Reads before (Piece.chars pieces) (pieces.map (·.lexeme.content)) ↔
      pieces.IsChain Piece.Parts := by
  induction pieces generalizing before with
  | nil => exact ⟨fun _ => .nil, fun _ => ⟨[], .done, rfl⟩⟩
  | cons piece pieces ih =>
    rw [Piece.chars_cons, List.map_cons, reads_lexeme piece.wellFormed, reads_gap piece.gap.blank, ih,
      Piece.endsBefore_chars, List.isChain_cons]

theorem reads_joined (before : List Char) {lexemes : List Lexeme}
    (h : ∀ lexeme ∈ lexemes, lexeme.WellFormed) :
    Reads before ([' '].intercalate (lexemes.map (·.value.toList))) (lexemes.map Lexeme.content) := by
  have hblank : ∀ c ∈ [' '], Text.isBlank c = true := List.forall_mem_singleton.2 (by decide)
  induction lexemes generalizing before with
  | nil => exact ⟨[], .done, rfl⟩
  | cons lexeme lexemes ih =>
    obtain ⟨hwell, h⟩ := List.forall_mem_cons.1 h
    cases lexemes with
    | nil =>
      have hlast : Reads before (lexeme.value.toList ++ []) [lexeme.content] :=
        (reads_lexeme hwell).2 ⟨nofun, [], .done, rfl⟩
      rw [List.append_nil] at hlast
      rw [List.map_singleton, List.map_singleton, List.intercalate_singleton]
      exact hlast
    | cons next lexemes =>
      rw [List.map_cons, List.map_cons, List.map_cons, List.intercalate_cons_cons, List.append_assoc]
      refine (reads_lexeme hwell).2 ⟨?_, (reads_gap hblank).2 (ih _ h)⟩
      intro c hc
      cases hc
      exact lexeme.category.not_continues_of_blank (by decide)

theorem reads_iff (text : String) (contents : List (String × Category)) :
    Reads [] text.toList contents ↔
      ∃ lexemes, Scan.ofText false text = ⟨lexemes, []⟩ ∧ lexemes.map Lexeme.content = contents := by
  constructor
  · rintro ⟨lexemes, h, hcontents⟩
    exact ⟨lexemes, Scan.ofText_of_layout h, hcontents⟩
  · rintro ⟨lexemes, h, hcontents⟩
    have hlayout := Scan.layout_ofText text
    rw [h] at hlayout
    exact ⟨lexemes, hlayout, hcontents⟩

theorem Scan.ofText_joined {lexemes : List Lexeme} (h : ∀ lexeme ∈ lexemes, lexeme.WellFormed) :
    ∃ again, ofText false (" ".intercalate (lexemes.map (·.value))) = ⟨again, []⟩ ∧
      again.map Lexeme.content = lexemes.map Lexeme.content := by
  have htext : (" ".intercalate (lexemes.map (·.value))).toList =
      [' '].intercalate (lexemes.map (·.value.toList)) := by
    rw [String.toList_intercalate, List.map_map]
    rfl
  apply (reads_iff _ _).1
  rw [htext]
  exact reads_joined [] h

end

theorem Scan.wellFormed_ofText (failFast : Bool) (text : String) :
    ∀ lexeme ∈ (ofText failFast text).lexemes, lexeme.WellFormed := by
  have hall := (layout_ofText text).wellFormed
  cases failFast with
  | false => exact hall
  | true =>
    intro lexeme hm
    rw [ofText_failFast_eq] at hm
    split at hm
    · exact hall lexeme hm
    · exact hall lexeme (List.mem_filter.1 hm).1

/-- Lexemes written with any gaps are found again, no more and no less, just if none that has another
right behind it goes on with the first character of that one. All lexemes that a scan finds can be
written, so with blanks between them they are found again. -/
theorem Lexeme.ofText_render_iff :
    (∀ (lead : Gap) (pieces : List Piece),
      (∃ lexemes, ofText (Piece.render lead pieces) = .ok lexemes ∧
        lexemes.map content = pieces.map (·.lexeme.content)) ↔ pieces.IsChain Piece.Parts) ∧
      ∀ (failFast : Bool) (text : String),
        let lexemes := (Scan.ofText failFast text).lexemes
        (∀ lexeme ∈ lexemes, lexeme.WellFormed) ∧
          ∃ again, ofText (" ".intercalate (lexemes.map (·.value))) = .ok again ∧
            again.map content = lexemes.map content := by
  constructor
  · intro lead pieces
    simp only [ofText_eq_ok]
    rw [← reads_iff, Piece.toList_render, reads_gap lead.blank, reads_pieces]
  · intro failFast text lexemes
    have hwell := Scan.wellFormed_ofText failFast text
    obtain ⟨again, hagain, hcontents⟩ := Scan.ofText_joined hwell
    exact ⟨hwell, again, ofText_eq_ok.2 hagain, hcontents⟩

end Lexicon
