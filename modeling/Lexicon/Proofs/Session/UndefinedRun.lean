import Lexicon.Proofs.Occurrence
import Lexicon.Proofs.Session.Undefined

namespace Lexicon

theorem SeparatorRun.eq_takeWhile {before run after : List Char} (h : SeparatorRun before run after) :
    run = (run ++ after).takeWhile fun c => CharClass.of c = .separator := by
  have hall : ∀ c ∈ run, decide (CharClass.of c = .separator) = true :=
    fun c hc => decide_eq_true (h.separators c hc)
  rw [List.takeWhile_append_of_pos hall]
  cases hafter : after with
  | nil => simp
  | cons c rest =>
    have hlast : CharClass.of c ≠ .separator := h.last c (by rw [hafter]; rfl)
    simp [hlast]

theorem separatorRun_lexeme {before rest : List Char} {lexeme : Lexeme} (hwell : lexeme.WellFormed)
    (hcategory : lexeme.category = .separator) (hend : lexeme.category.EndsBefore rest)
    (hparted : Parted before (lexeme.value.toList ++ rest)) :
    SeparatorRun before lexeme.value.toList rest := by
  have hclass := hwell.separators hcategory
  obtain ⟨first, others, hvalue, -, -⟩ := hwell
  rw [hvalue] at hclass hparted ⊢
  have hfirst : CharClass.of first = .separator := hclass first List.mem_cons_self
  have hline : first ≠ '\n' := by
    rintro rfl
    exact absurd hfirst (by decide)
  exact ⟨hparted.uncommented first rfl hline, List.cons_ne_nil _ _, hclass,
    hparted.apart first rfl hfirst, hend.not_separator hcategory⟩

namespace Session

def UndefinedRun (session : Session) : Pattern :=
  fun before run after => SeparatorRun before run after ∧ String.ofList run ∉ session.separators.toList

variable {session : Session} {lexeme : Lexeme} {lexemes : List Lexeme}

theorem visible_undefinedRun (session : Session) : session.UndefinedRun.Visible :=
  visible_of_separatorRun And.left

theorem clearIn_lexeme {before rest : List Char} (hwell : lexeme.WellFormed)
    (hend : lexeme.category.EndsBefore rest) (hparted : Parted before (lexeme.value.toList ++ rest))
    (hhas : ¬ session.Lacks lexeme)
    (hclear : session.UndefinedRun.ClearIn (before ++ (lexeme.value.toList ++ rest)) before) :
    session.UndefinedRun.ClearIn (before ++ lexeme.value.toList ++ rest)
      (before ++ lexeme.value.toList) := by
  apply Pattern.clearIn_append hclear
  intro passed c more hitem run after hwhole hp
  obtain ⟨-, ⟨others, rfl⟩, -⟩ := Pattern.head_of_visible session.visible_undefinedRun hwhole hp
  obtain ⟨hr, hnot⟩ := hp
  have hc : c ∈ lexeme.value.toList := by
    rw [hitem]
    exact List.mem_append_right _ List.mem_cons_self
  have hs : CharClass.of c = .separator := hr.separators c List.mem_cons_self
  have hcategory : lexeme.category = .separator :=
    Decidable.byContradiction fun hn => hwell.not_separators hn c hc hs
  obtain rfl | ⟨front, d, rfl⟩ := List.eq_nil_or_concat passed
  · have hrun := separatorRun_lexeme hwell hcategory hend hparted
    have hsame : c :: others = lexeme.value.toList := by
      rw [hrun.eq_takeWhile, hr.eq_takeWhile, ← hwhole, hitem]
      rfl
    rw [hsame, String.ofList_toList] at hnot
    exact hhas ⟨hcategory, hnot⟩
  · -- a run would begin behind a separator character
    have hd : d ∈ lexeme.value.toList := by
      rw [hitem]
      simp
    refine hr.first d ?_ (hwell.separators hcategory d hd)
    rw [List.concat_eq_append, ← List.append_assoc, List.getLast?_concat]
    rfl

/-- The first of the separators that are not defined is the leftmost run. -/
theorem first_undefined {before text : List Char} {errors : List LexicalError}
    (h : Layout before text lexemes errors) (hparted : Parted before text)
    (hclear : session.UndefinedRun.ClearIn (before ++ text) before) :
    session.undefined lexemes = [] ∧ session.UndefinedRun.Absent (before ++ text) ∨
      ∃ front run back more, session.UndefinedRun.First (before ++ text) front run back ∧
        session.undefined lexemes =
          ⟨.undefinedSeparator (String.ofList run), .behind front⟩ :: more := by
  have hv : session.UndefinedRun.Visible := session.visible_undefinedRun
  induction h with
  | done => exact .inl ⟨rfl, Pattern.absent_of_clearIn hv hclear⟩
  | @blank before rest lexemes errors c hc _ ih =>
    have hnext := ih (parted_blank hparted hc) (Pattern.clearIn_blank hv hc hclear)
    rwa [List.append_assoc, List.singleton_append] at hnext
  | @comment before rest lexemes errors body hbody hend _ ih =>
    have hnext := ih (parted_comment hend) (Pattern.clearIn_comment hv hbody hclear)
    rwa [List.append_assoc, List.cons_append] at hnext
  | @refused before rest lexemes errors c ho _ ih =>
    have hnext := ih (parted_refused hparted ho) ?_
    · rwa [List.append_assoc, List.singleton_append] at hnext
    · apply Pattern.clearIn_concat hclear
      intro run after hwhole hp
      obtain ⟨-, ⟨others, rfl⟩, -⟩ := Pattern.head_of_visible hv hwhole hp
      have hs : CharClass.of c = .separator := hp.1.separators c List.mem_cons_self
      rw [ho] at hs
      cases hs
  | @lexeme before rest lexemes errors lexeme hwell hend hplace _ ih =>
    by_cases hl : session.Lacks lexeme
    · have hrun := separatorRun_lexeme hwell hl.1 hend hparted
      have hp : session.UndefinedRun before lexeme.value.toList rest := by
        refine ⟨hrun, ?_⟩
        rw [String.ofList_toList]
        exact hl.2
      refine .inr ⟨before, lexeme.value.toList, rest, session.undefined lexemes,
        Pattern.first_of_clearIn hclear hp, ?_⟩
      rw [undefined_cons_of_lacks hl, LexicalError.undefined, String.ofList_toList, hplace]
    · have hnext := ih (parted_lexeme hwell hend hparted)
        (clearIn_lexeme hwell hend hparted hl hclear)
      rwa [List.append_assoc, ← undefined_cons_of_has hl] at hnext

end Session

end Lexicon
