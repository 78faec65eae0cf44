import Lexicon.Proofs.Session.Filing

namespace Lexicon

def Lexeme.fault? (lexeme : Lexeme) : Option UnknownCategory :=
  match lexeme.category with
  | .unknown word => some ⟨word⟩
  | .literal | .separator | .identifier => none

theorem Lexeme.fault?_eq_none {lexeme : Lexeme} : lexeme.fault? = none ↔ lexeme.category.Scanned := by
  unfold Lexeme.fault? Category.Scanned
  cases lexeme.category <;> simp

theorem Lexeme.category_of_fault {lexeme : Lexeme} {fault : UnknownCategory}
    (h : lexeme.fault? = some fault) : lexeme.category = .unknown fault.word := by
  unfold Lexeme.fault? at h
  cases hc : lexeme.category with
  | literal | separator | identifier =>
    simp only [hc] at h
    cases h
  | unknown word =>
    simp only [hc] at h
    cases h
    rfl

namespace Session

variable {session : Session} {failFast : Bool} {before after lexemes : List Lexeme} {lexeme : Lexeme}
  {fault : UnknownCategory}

theorem not_lacks_of_fault (h : lexeme.fault? = some fault) : ¬ session.Lacks lexeme := by
  rintro ⟨hcategory, -⟩
  rw [Lexeme.category_of_fault h] at hcategory
  cases hcategory

theorem undefined_append (session : Session) (front back : List Lexeme) :
    session.undefined (front ++ back) = session.undefined front ++ session.undefined back := by
  simp only [undefined, List.filter_append, List.map_append]

/-- Some lexeme of unknown category comes before every separator that is not defined. -/
def FaultFirst (session : Session) (lexemes : List Lexeme) : Prop :=
  ∃ (i : Nat) (lexeme : Lexeme), lexemes[i]? = some lexeme ∧ lexeme.fault? ≠ none ∧
    ∀ (j : Nat) (other : Lexeme), lexemes[j]? = some other → session.Lacks other → i < j

theorem faultFirst_iff (hs : ∀ earlier ∈ before, earlier.category.Scanned)
    (hf : lexeme.fault? = some fault) :
    session.FaultFirst (before ++ lexeme :: after) ↔ session.undefined before = [] := by
  rw [undefined_eq_nil]
  constructor
  · rintro ⟨i, found, hi, hfound, hfirst⟩ earlier hm hl
    obtain ⟨j, hj⟩ := List.mem_iff_getElem?.1 hm
    have hlt : j < before.length := (List.getElem?_eq_some_iff.1 hj).1
    have hij : i < j := hfirst j earlier (by rw [List.getElem?_append_left hlt, hj]) hl
    rw [List.getElem?_append_left (by omega)] at hi
    exact hfound (Lexeme.fault?_eq_none.2 (hs found (List.mem_of_getElem? hi)))
  · intro hhas
    refine ⟨before.length, lexeme, ?_, by simp [hf], ?_⟩
    · rw [List.getElem?_append_right (Nat.le_refl _), Nat.sub_self, List.getElem?_cons_zero]
    · intro j other hj hl
      refine Nat.lt_of_not_le fun hle => ?_
      obtain hlt | rfl := Nat.lt_or_eq_of_le hle
      · rw [List.getElem?_append_left hlt] at hj
        exact hhas other (List.mem_of_getElem? hj) hl
      · rw [List.getElem?_append_right (Nat.le_refl _), Nat.sub_self, List.getElem?_cons_zero] at hj
        cases hj
        exact not_lacks_of_fault hf hl

structure BreaksOff (session : Session) (failFast : Bool) (lexemes : List Lexeme)
    (fault : UnknownCategory) : Prop where
  first : (lexemes.filterMap Lexeme.fault?).head? = some fault
  leads : failFast = true → session.FaultFirst lexemes

theorem exists_first_fault (h : (lexemes.filterMap Lexeme.fault?).head? = some fault) :
    ∃ before lexeme after, lexemes = before ++ lexeme :: after ∧
      (∀ earlier ∈ before, earlier.category.Scanned) ∧ lexeme.fault? = some fault := by
  rw [List.head?_filterMap, List.findSome?_eq_some_iff] at h
  obtain ⟨before, lexeme, after, rfl, hf, hs⟩ := h
  exact ⟨before, lexeme, after, rfl, fun earlier hm => Lexeme.fault?_eq_none.1 (hs earlier hm), hf⟩

theorem scanned_of_no_fault (h : (lexemes.filterMap Lexeme.fault?).head? = none) :
    ∀ lexeme ∈ lexemes, lexeme.category.Scanned := by
  rw [List.head?_filterMap, List.findSome?_eq_none_iff] at h
  exact fun lexeme hm => Lexeme.fault?_eq_none.1 (h lexeme hm)

theorem classify_of_first_fault (hs : ∀ earlier ∈ before, earlier.category.Scanned)
    (hf : lexeme.fault? = some fault) (hu : failFast = true → session.undefined before = []) :
    session.classify failFast (before ++ lexeme :: after) = (.error fault, session.released) := by
  obtain ⟨middle, hrun, herrors⟩ := errors_run failFast before { session := session.taken } hs
  have hgoes : ¬ (failFast = true ∧ middle.errors ≠ #[]) := by
    rintro ⟨hfail, hne⟩
    have hu' : session.taken.undefined before = [] := hu hfail
    apply hne
    apply Array.toList_inj.1
    simpa [hfail, hu'] using herrors
  have hr : middle.session.resolveLexeme lexeme = (.error (.category fault), middle.session) := by
    simp only [resolveLexeme, Lexeme.category_of_fault hf]
  have hbreaks : Pass.run failFast (before ++ lexeme :: after) { session := session.taken } =
      (some fault, middle) := by
    rw [run_append failFast before (lexeme :: after) _ (fun _ => rfl), hrun]
    simp only [if_neg hgoes, Pass.run, hr]
  exact classify_of_fault hbreaks

theorem classify_of_first_undefined {first : LexicalError} {more : List LexicalError}
    (hs : ∀ earlier ∈ before, earlier.category.Scanned) (hu : session.undefined before = first :: more)
    (after : List Lexeme) :
    session.classify true (before ++ after) = (.ok ⟨[], [first]⟩, session.released) := by
  obtain ⟨middle, hrun, herrors⟩ := errors_run true before { session := session.taken } hs
  have hu' : session.taken.undefined before = first :: more := hu
  have hmiddle : middle.errors.toList = [first] := by simpa [hu'] using herrors
  have hne : middle.errors ≠ #[] := Pass.errors_ne_empty hmiddle
  have hstops : Pass.run true (before ++ after) { session := session.taken } = (none, middle) := by
    rw [run_append true before after _ (fun _ => rfl), hrun]
    exact if_pos ⟨rfl, hne⟩
  rw [classify_of_errors hstops hne, hmiddle]

/-- What a classification comes to: a fault that breaks it off, or else errors, or else the reference of
each lexeme. -/
inductive ComesTo (session : Session) (failFast : Bool) (lexemes : List Lexeme) :
    Except UnknownCategory Classification × Session → Prop
  | fault {fault : UnknownCategory} (h : session.BreaksOff failFast lexemes fault) :
      ComesTo session failFast lexemes (.error fault, session.released)
  | errors {first : LexicalError} {more : List LexicalError}
      (hn : ∀ fault, ¬ session.BreaksOff failFast lexemes fault)
      (hu : session.undefined lexemes = first :: more) :
      ComesTo session failFast lexemes
        (.ok ⟨[], if failFast then [first] else first :: more⟩, session.released)
  | accepted {references : List Reference} {later : Session}
      (hn : ∀ fault, ¬ session.BreaksOff failFast lexemes fault)
      (hu : session.undefined lexemes = []) (he : session.Extends later)
      (ht : later.trace.toList = session.trace.toList ++ references)
      (hf : List.Forall₂ later.Files lexemes references) :
      ComesTo session failFast lexemes (.ok ⟨references, []⟩, later)

theorem comesTo_classify (session : Session) (failFast : Bool) (lexemes : List Lexeme) :
    session.ComesTo failFast lexemes (session.classify failFast lexemes) := by
  cases hfirst : (lexemes.filterMap Lexeme.fault?).head? with
  | none =>
    have hs := scanned_of_no_fault hfirst
    have hn : ∀ fault, ¬ session.BreaksOff failFast lexemes fault := by
      intro fault h
      cases hfirst.symm.trans h.first
    cases hu : session.undefined lexemes with
    | nil =>
      obtain ⟨references, later, hc, he, ht, hf⟩ := files_classify failFast hs hu
      rw [hc]
      exact .accepted hn hu he ht hf
    | cons first more =>
      rw [classify_of_undefined hs hu failFast]
      exact .errors hn hu
  | some fault =>
    obtain ⟨before, lexeme, after, rfl, hs, hf⟩ := exists_first_fault hfirst
    have hlead : session.FaultFirst (before ++ lexeme :: after) ↔ session.undefined before = [] :=
      faultFirst_iff hs hf
    by_cases hclear : failFast = true → session.undefined before = []
    · rw [classify_of_first_fault hs hf hclear]
      exact .fault ⟨hfirst, fun hfail => hlead.2 (hclear hfail)⟩
    · obtain ⟨rfl, hne⟩ := Classical.not_imp.1 hclear
      obtain ⟨first, more, hu⟩ := List.exists_cons_of_ne_nil hne
      have hn : ∀ fault, ¬ session.BreaksOff true (before ++ lexeme :: after) fault :=
        fun fault h => hne (hlead.1 (h.leads rfl))
      have hall : session.undefined (before ++ lexeme :: after) =
          first :: (more ++ session.undefined (lexeme :: after)) := by
        rw [undefined_append, hu, List.cons_append]
      rw [classify_of_first_undefined hs hu]
      exact .errors hn hall

/-- A classification is broken off by the first lexeme of unknown category, or if it fails fast only
where that comes before every separator that is not defined. Else its errors are those separators, or
the first of them, and without errors each lexeme has its reference at the end of the trace. -/
theorem classify_outcome (session : Session) (failFast : Bool) (lexemes : List Lexeme) :
    let result := (session.classify failFast lexemes).1
    let later := (session.classify failFast lexemes).2
    (∀ fault, result = .error fault ↔ session.BreaksOff failFast lexemes fault) ∧
      ∀ classification, result = .ok classification →
        classification.errors =
            (if failFast then (session.undefined lexemes).take 1 else session.undefined lexemes) ∧
          (classification.references ≠ [] → classification.errors = []) ∧
          (classification.errors = [] → session.Extends later ∧
            later.trace.toList = session.trace.toList ++ classification.references ∧
            List.Forall₂ later.Files lexemes classification.references) := by
  intro result later
  have h := session.comesTo_classify failFast lexemes
  unfold result later
  generalize session.classify failFast lexemes = outcome at h ⊢
  cases h with
  | fault hb =>
    refine ⟨?_, fun _ => nofun⟩
    intro fault
    constructor
    · intro hr
      cases hr
      exact hb
    · intro hb'
      rw [Option.some.inj (hb.first.symm.trans hb'.first)]
  | errors hn hu =>
    refine ⟨fun fault => ⟨nofun, fun hb => absurd hb (hn fault)⟩, ?_⟩
    intro classification hr
    cases hr
    refine ⟨by rw [hu]; rfl, fun hne => absurd rfl hne, ?_⟩
    cases failFast <;> exact nofun
  | accepted hn hu he ht hf =>
    refine ⟨fun fault => ⟨nofun, fun hb => absurd hb (hn fault)⟩, ?_⟩
    intro classification hr
    cases hr
    refine ⟨?_, fun _ => rfl, fun _ => ⟨he, ht, hf⟩⟩
    rw [hu, List.take_nil, ite_self]

end Session

end Lexicon
