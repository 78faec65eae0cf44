import Lexicon.Proofs.Grammar
import Lexicon.Proofs.Scanner.Resumption

namespace Lexicon.Scanner

/-- One round of the loop of a scan that is followed by another, with the error that it notes. -/
inductive Round (failFast : Bool) : Scanner → List LexicalError → Scanner → Prop
  | step {scanner next : Scanner} (h : scanner.step = .ok () next) : Round failFast scanner [] next
  | skip {scanner same : Scanner} {error : LexicalError} (hslow : failFast = false)
      (h : scanner.step = .error (.unexpected error) same) :
      Round failFast scanner [error] same.advance

/-- The loop of a scan is over: where the text is, or at a refused character if the scan fails fast. -/
inductive Exit (failFast : Bool) : Scanner → List LexicalError → Scanner → Prop
  | finished {scanner : Scanner} (h : scanner.rest = []) : Exit failFast scanner [] scanner.finish
  | stopped {scanner same : Scanner} {error : LexicalError} (hfast : failFast = true)
      (h : scanner.step = .error (.unexpected error) same) : Exit failFast scanner [error] same

inductive Rounds (failFast : Bool) : Nat → Scanner → List LexicalError → Scanner → Prop
  | none {scanner : Scanner} : Rounds failFast 0 scanner [] scanner
  | more {count : Nat} {scanner next last : Scanner} {errors later : List LexicalError}
      (h : Round failFast scanner errors next) (hs : Rounds failFast count next later last) :
      Rounds failFast (count + 1) scanner (errors ++ later) last

variable {scanner next last : Scanner} {text : List Char} {failFast : Bool} {count : Nat}
  {errors : List LexicalError}

theorem rankOf_round (h : Round failFast scanner errors next) : next.rankOf < scanner.rankOf := by
  cases h with
  | step h => exact rankOf_step_lt h
  | skip _ h => exact rankOf_refused_lt h

theorem rankOf_rounds (h : Rounds failFast count scanner errors last) :
    count + last.rankOf ≤ scanner.rankOf := by
  induction h with
  | none => omega
  | more h _ ih =>
    have hlt := rankOf_round h
    omega

theorem round_cases (h : Round failFast scanner errors next) :
    (∃ c rest, scanner.rest = c :: rest) ∧
      (next.offset = scanner.offset ∨ next.offset = scanner.offset + 1) := by
  cases h with
  | step h =>
    obtain ⟨c, rest, hrest, hm⟩ := step_cases h
    refine ⟨⟨c, rest, hrest⟩, ?_⟩
    cases hm with
    | skip | shift => exact .inr rfl
    | enter | emit => exact .inl rfl
  | skip _ h =>
    obtain ⟨rfl, ⟨-, hr⟩ | ⟨c, rest, hrest, -⟩⟩ := step_refused h
    · cases hr
    · exact ⟨⟨c, rest, hrest⟩, .inr rfl⟩

theorem tracks_round (ht : scanner.Tracks text) (h : Round failFast scanner errors next) :
    next.Tracks text := by
  cases h with
  | step h => exact tracks_step ht h
  | skip _ h =>
    rw [(step_refused h).1]
    exact tracks_advance ht

theorem tracks_rounds (ht : scanner.Tracks text) (h : Rounds failFast count scanner errors last) :
    last.Tracks text := by
  induction h with
  | none => exact ht
  | more h _ ih => exact ih (tracks_round ht h)

/-- Rounds never go back, and they do not go past the end of the text. -/
theorem offset_rounds (ht : scanner.Tracks text) (h : Rounds failFast count scanner errors last) :
    scanner.offset ≤ last.offset ∧ last.offset ≤ max scanner.offset text.length := by
  induction h with
  | none => omega
  | more h _ ih =>
    obtain ⟨⟨c, rest, hrest⟩, hoffset⟩ := round_cases h
    have hlt := lt_length_of_rest ht hrest
    have hlater := ih (tracks_round ht h)
    omega

theorem rounds_scanFrom (failFast : Bool) (scanner : Scanner) (noted : Array LexicalError) :
    ∃ count stopped errors named, Rounds failFast count scanner errors stopped ∧
      Exit failFast stopped named (scanner.scanFrom failFast noted).2 ∧
      (scanner.scanFrom failFast noted).1.toList = noted.toList ++ errors ++ named := by
  fun_induction scanFrom failFast scanner noted with
  | case1 scanner noted next hs ih =>
    obtain ⟨count, stopped, errors, named, hrounds, hexit, herrors⟩ := ih
    exact ⟨count + 1, stopped, errors, named, .more (.step hs) hrounds, hexit, herrors⟩
  | case2 scanner noted error same hs hfast =>
    exact ⟨0, scanner, [], [error], .none, .stopped hfast hs, by simp⟩
  | case3 scanner noted error same hs hslow ih =>
    obtain ⟨count, stopped, errors, named, hrounds, hexit, herrors⟩ := ih
    refine ⟨count + 1, stopped, error :: errors, named,
      .more (.skip (Bool.eq_false_iff.2 hslow) hs) hrounds, hexit, ?_⟩
    rw [herrors]
    simp
  | case4 scanner noted refusal same hlexical hs =>
    obtain ⟨rfl, ⟨hend, -⟩ | ⟨c, rest, -, -, -, hr⟩⟩ := step_refused hs
    · exact ⟨0, same, [], [], .none, .finished hend, by simp⟩
    · exact absurd hr (hlexical _)

theorem rounds_scan (failFast : Bool) (scanner : Scanner) :
    ∃ count stopped errors named, Rounds failFast count scanner errors stopped ∧
      Exit failFast stopped named (scanner.scan failFast).2 ∧
      (scanner.scan failFast).1.errors = errors ++ named := by
  obtain ⟨count, stopped, errors, named, hrounds, hexit, herrors⟩ :=
    rounds_scanFrom failFast scanner #[]
  exact ⟨count, stopped, errors, named, hrounds, hexit, by simpa [scan] using herrors⟩

theorem errors_rounds_failFast (h : Rounds true count scanner errors last) : errors = [] := by
  generalize hfast : true = failFast at h
  induction h with
  | none => rfl
  | more h _ ih =>
    cases h with
    | step _ => exact ih
    | skip hslow _ => exact absurd (hfast.trans hslow) (by decide)

theorem state_finish (scanner : Scanner) : scanner.finish.state = .start := by
  obtain ⟨-, hf⟩ | ⟨category, -, hf⟩ := finish_cases scanner <;> rw [hf] <;> rfl

theorem offset_finish (scanner : Scanner) : scanner.finish.offset = scanner.offset := by
  obtain ⟨-, hf⟩ | ⟨category, -, hf⟩ := finish_cases scanner <;> rw [hf] <;> rfl

theorem buffer_of_start (ht : scanner.Tracks text) (hstate : scanner.state = .start) :
    scanner.buffer = "" := by
  apply buffer_of_category_none ht
  rw [hstate]
  rfl

theorem exit_finished (ht : scanner.Tracks text) (h : Exit failFast scanner [] last) :
    last.current? = none ∧ last.offset = scanner.offset ∧ text.length ≤ scanner.offset ∧
      last.state = .start ∧ last.buffer = "" := by
  cases h with
  | finished hend =>
    have hover : text.length ≤ scanner.offset := by
      have hdrop := ht.rest
      rw [hend] at hdrop
      exact List.drop_eq_nil_iff.1 hdrop.symm
    have hstate := state_finish scanner
    refine ⟨?_, offset_finish scanner, hover, hstate, buffer_of_start (tracks_finish ht) hstate⟩
    rw [current?, rest_finish, hend]
    rfl

theorem exit_stopped {error : LexicalError} {more : List LexicalError} (ht : scanner.Tracks text)
    (h : Exit failFast scanner (error :: more) last) :
    failFast = true ∧ more = [] ∧ last.state = .start ∧ last.buffer = "" ∧
      ∃ c, last.current? = some c ∧ CharClass.of c = .other ∧ error = .unexpected c last.position := by
  cases h with
  | stopped hfast h =>
    obtain ⟨rfl, ⟨-, hr⟩ | ⟨c, rest, hrest, hstate, ho, hr⟩⟩ := step_refused h
    · cases hr
    · have hcurrent : last.current? = some c := by
        rw [current?, hrest]
        rfl
      refine ⟨hfast, rfl, hstate, buffer_of_start ht hstate, c, hcurrent, ho, ?_⟩
      rw [Refusal.unexpected.inj hr, Scanner.error, hcurrent]
      rfl

/-- Wherever calls have left the scanner of a text, the loop of a scan comes to an end, since every
round of it lowers the rank, also one that passes over no character. It ends behind the text, or at
the character of no class that it names if it is to fail fast, and in either case with nothing in
hand. -/
theorem scan_ends (text : String) (calls : List Call) (failFast : Bool) :
    let scanner := (ofText text).run calls
    let (scan, last) := scanner.scan failFast
    (∀ before errors next, Round failFast before errors next →
        rank next.rest.length next.state (next.current?.map .of) <
          rank before.rest.length before.state (before.current?.map .of)) ∧
      (∃ count stopped errors named, count ≤ scanner.rankOf ∧
        Rounds failFast count scanner errors stopped ∧ Exit failFast stopped named last ∧
        scan.errors = errors ++ named) ∧
      (failFast = false ∨ scan.errors = [] →
        last.current? = none ∧ last.offset = max scanner.offset text.length ∧
          last.state = .start ∧ last.buffer = "") ∧
      ∀ error ∈ scan.errors, failFast = true →
        scan.errors = [error] ∧ last.state = .start ∧ last.buffer = "" ∧
          ∃ c, last.current? = some c ∧ CharClass.of c = .other ∧
            error = .unexpected c last.position := by
  intro scanner
  have ht : scanner.Tracks text.toList := tracks_run (tracks_ofText text) calls
  obtain ⟨count, stopped, errors, named, hrounds, hexit, herrors⟩ := rounds_scan failFast scanner
  generalize scanner.scan failFast = scanned at hexit herrors ⊢
  obtain ⟨scan, last⟩ := scanned
  dsimp only at hexit herrors ⊢
  have hstopped := tracks_rounds ht hrounds
  have hcount : count ≤ scanner.rankOf := by
    have hle := rankOf_rounds hrounds
    omega
  refine ⟨fun _ _ _ => rankOf_round,
    ⟨count, stopped, errors, named, hcount, hrounds, hexit, herrors⟩, ?_, ?_⟩
  · intro hclean
    cases named with
    | nil =>
      obtain ⟨hcurrent, hoffset, hover, hclear⟩ := exit_finished hstopped hexit
      have hbounds := offset_rounds ht hrounds
      rw [String.length_toList] at hover hbounds
      exact ⟨hcurrent, by omega, hclear⟩
    | cons error more =>
      obtain ⟨hfast, -⟩ := exit_stopped hstopped hexit
      obtain hslow | hnone := hclean
      · exact absurd (hfast.symm.trans hslow) (by decide)
      · rw [herrors] at hnone
        exact absurd (List.append_eq_nil_iff.1 hnone).2 (List.cons_ne_nil _ _)
  · intro error hmem hfast
    rw [hfast] at hrounds
    -- a scan that fails fast notes nothing before its exit
    have hnone := errors_rounds_failFast hrounds
    have hnamed : scan.errors = named := by
      rw [herrors, hnone, List.nil_append]
    rw [hnamed] at hmem ⊢
    cases named with
    | nil => cases hmem
    | cons first more =>
      obtain ⟨-, rfl, hstands⟩ := exit_stopped hstopped hexit
      obtain rfl := List.mem_singleton.1 hmem
      exact ⟨rfl, hstands⟩

end Lexicon.Scanner
