import Lexicon.Proofs.Session.Rebuilding

namespace Lexicon

namespace Category

def spells (category : Category) (text : String) : Bool :=
  match text.toList with
  | [] => false
  | first :: others => category.begins first && others.all category.continues

theorem spells_iff {category : Category} {text : String} {position : Position} :
    category.spells text = true ↔ (⟨text, category, position⟩ : Lexeme).WellFormed := by
  unfold spells Lexeme.WellFormed
  dsimp only
  cases text.toList with
  | nil => simp
  | cons first others => simp

end Category

namespace Session

def Traces (session : Session) (text : String) (reference : Reference) : Prop :=
  ∃ made, (session.analyze text).2.trace.toList = session.trace.toList ++ made ∧ reference ∈ made

/-- The entry that the reference leads to, taken in as a text, is one lexeme, and adds the reference and
no other. -/
def Yields (session : Session) (reference : Reference) : Prop :=
  ∃ later, session.analyze reference.value = (.ok [reference.lexeme], later) ∧
    later.trace.toList = session.trace.toList ++ [reference]

variable {session : Session} {text : String} {lexeme : Lexeme} {reference other : Reference} {i : Nat}

theorem Files.unique (h : session.Files lexeme reference) (h' : session.Files lexeme other) :
    reference = other := by
  have hentry : reference.entry = other.entry := Option.some.inj (h.entryOf.symm.trans h'.entryOf)
  have hrefer := h.points.refer
  rw [hentry, h'.points.refer] at hrefer
  exact (Option.some.inj hrefer).symm

theorem scan_of_spells {category : Category} (h : category.spells text = true) :
    Scan.ofText false text = ⟨[⟨text, category, {}⟩], []⟩ := by
  have hlayout : Layout [] (text.toList ++ []) [⟨text, category, {}⟩] [] :=
    .lexeme (Category.spells_iff.1 h) nofun rfl .done
  rw [List.append_nil] at hlayout
  exact Scan.ofText_of_layout hlayout

theorem Traces.spells (h : session.Traces text reference) :
    (session.analyze text).2.Points reference ∧ session.Extends (session.analyze text).2 ∧
      reference.kind.category.spells reference.value = true := by
  obtain ⟨made, htrace, hr⟩ := h
  obtain ⟨made', htrace', hextends, hmade⟩ := analyze_makes session text
  rw [htrace, List.append_cancel_left_eq] at htrace'
  obtain ⟨hwell, hpoints⟩ := hmade reference (htrace' ▸ hr)
  exact ⟨hpoints, hextends, Category.spells_iff.2 hwell⟩

theorem yields_of_files (h : session.Files reference.lexeme reference)
    (hspells : reference.kind.category.spells reference.value = true) : session.Yields reference := by
  have hscan : Scan.ofText false reference.value = ⟨[reference.lexeme], []⟩ := scan_of_spells hspells
  have hu : session.undefined (Scan.ofText false reference.value).lexemes = [] := by
    rw [hscan, undefined_eq_nil]
    exact List.forall_mem_singleton.2 h.not_lacks
  obtain ⟨references, later, ha, hextends, htrace, hfiles⟩ := analyze_of_accepted (by rw [hscan]) hu
  rw [hscan] at ha hfiles
  obtain ⟨made, rfl⟩ : ∃ made, references = [made] := List.length_eq_one_iff.1 hfiles.length_eq.symm
  have hmade : later.Files reference.lexeme made := (List.forall₂_cons.1 hfiles).1
  rw [hmade.unique (h.of_extends hextends)] at htrace
  exact ⟨later, ha, htrace⟩

theorem Yields.traces (h : session.Yields reference) : session.Traces reference.value reference := by
  obtain ⟨later, ha, htrace⟩ := h
  refine ⟨[reference], ?_, List.mem_singleton_self reference⟩
  rw [ha, htrace]

theorem yields_keyword {keyword : String} (hget : session.keywords.toList[i]? = some keyword)
    (h : Category.identifier.spells keyword = true) : session.Yields ⟨keyword, .keyword, i⟩ := by
  have hkind : session.kindOf ⟨keyword, .identifier, {}⟩ = some .keyword :=
    congrArg some (if_pos (List.mem_of_getElem? hget))
  exact yields_of_files ⟨rfl, hkind, i, rfl, hget⟩ h

theorem yields_separator {separator : String} (hget : session.separators.toList[i]? = some separator)
    (h : Category.separator.spells separator = true) : session.Yields ⟨separator, .separator, i⟩ :=
  yields_of_files ⟨rfl, rfl, i, rfl, hget⟩ h

/-- A text can refer to a keyword just if the keyword is spelled as an identifier is, and to a separator
just if it is a run of separator characters. The entry by itself is then such a text. -/
theorem traces_iff_spells (session : Session) (i : Nat) :
    ((∃ text value, session.Traces text ⟨value, .keyword, i⟩) ↔
        ∃ keyword, session.keywords.toList[i]? = some keyword ∧
          Category.identifier.spells keyword = true) ∧
      ((∃ text value, session.Traces text ⟨value, .separator, i⟩) ↔
        ∃ separator, session.separators.toList[i]? = some separator ∧
          Category.separator.spells separator = true) ∧
      (∀ keyword, session.keywords.toList[i]? = some keyword →
        Category.identifier.spells keyword = true → session.Yields ⟨keyword, .keyword, i⟩) ∧
      ∀ separator, session.separators.toList[i]? = some separator →
        Category.separator.spells separator = true → session.Yields ⟨separator, .separator, i⟩ := by
  refine ⟨⟨?_, ?_⟩, ⟨?_, ?_⟩, fun _ => yields_keyword, fun _ => yields_separator⟩
  · rintro ⟨text, value, h⟩
    obtain ⟨⟨j, hj, hget⟩, hextends, hspells⟩ := h.spells
    rw [Int.ofNat_inj.1 hj, ← hextends.keywords]
    exact ⟨value, hget, hspells⟩
  · rintro ⟨keyword, hget, hspells⟩
    exact ⟨keyword, keyword, (yields_keyword hget hspells).traces⟩
  · rintro ⟨text, value, h⟩
    obtain ⟨⟨j, hj, hget⟩, hextends, hspells⟩ := h.spells
    rw [Int.ofNat_inj.1 hj, ← hextends.separators]
    exact ⟨value, hget, hspells⟩
  · rintro ⟨separator, hget, hspells⟩
    exact ⟨separator, separator, (yields_separator hget hspells).traces⟩

end Session

end Lexicon
