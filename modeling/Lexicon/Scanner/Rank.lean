import Lexicon.Scanner.Basic

namespace Lexicon.Scanner

/-- A rank for the loop of a scan: it counts three for each character that is left, and one for each
time that the current one can still be dispatched again. -/
def rank (remaining : Nat) (state : State) (current : Option CharClass) : Nat :=
  3 * remaining + match current.map (transition state) with
    | some (.emit _) => 2
    | some (.enter _) => 1
    | _ => 0

def rankOf (scanner : Scanner) : Nat :=
  rank scanner.rest.length scanner.state (scanner.current?.map .of)

theorem rank_le (remaining : Nat) (state : State) (current : Option CharClass) :
    rank remaining state current ≤ 3 * remaining + 2 := by
  unfold rank
  split <;> omega

theorem rank_dispatched_lt {state next : State} {charClass : CharClass}
    (h : transition state charClass = .enter next ∨ transition state charClass = .emit next)
    (remaining : Nat) :
    rank remaining next (some charClass) < rank remaining state (some charClass) := by
  obtain h | h := h <;> cases state <;> cases charClass <;> cases h <;>
    simp [rank, transition, State.accepts]

theorem rankOf_advance_lt {scanner : Scanner} (h : scanner.rest ≠ []) (state : State) :
    (scanner.advance.goto state).rankOf < scanner.rankOf := by
  cases hr : scanner.rest with
  | nil => exact absurd hr h
  | cons c rest =>
    have hle := rank_le rest.length state (rest.head?.map .of)
    simp only [rankOf, goto, advance, current?, hr, List.tail_cons]
    simp only [rank, List.length_cons] at hle ⊢
    omega

theorem step_error {scanner same : Scanner} {error : LexicalError}
    (h : scanner.step = .error (.unexpected error) same) :
    scanner.rest ≠ [] ∧ same = scanner := by
  cases hr : scanner.rest with
  | nil => simp [step, hr] at h
  | cons c rest =>
    refine ⟨List.cons_ne_nil c rest, ?_⟩
    simp only [step, hr] at h
    split at h
    · cases h
    · cases h
    · cases h
    · unfold emit at h
      cases hc : scanner.state.category <;> simp [hc] at h
    · exact (EStateM.Result.error.inj h).2.symm

theorem rankOf_refused_lt {scanner same : Scanner} {error : LexicalError}
    (h : scanner.step = .error (.unexpected error) same) :
    same.advance.rankOf < scanner.rankOf := by
  obtain ⟨hne, rfl⟩ := step_error h
  exact rankOf_advance_lt hne same.state

theorem rankOf_step_lt {scanner next : Scanner} (h : scanner.step = .ok () next) :
    next.rankOf < scanner.rankOf := by
  cases hr : scanner.rest with
  | nil => simp [step, hr] at h
  | cons c rest =>
    have hne : scanner.rest ≠ [] := by simp [hr]
    simp only [step, hr] at h
    split at h
    · simp only [EStateM.Result.ok.injEq, true_and] at h
      exact h ▸ rankOf_advance_lt hne _
    · simp only [EStateM.Result.ok.injEq, true_and] at h
      exact h ▸ rankOf_advance_lt hne _
    · next ht =>
      simp only [EStateM.Result.ok.injEq, true_and] at h
      simpa [← h, rankOf, current?, hr] using rank_dispatched_lt (.inl ht) (rest.length + 1)
    · next ht =>
      unfold emit at h
      cases hc : scanner.state.category with
      | none => simp [hc] at h
      | some category =>
        simp only [hc, EStateM.Result.ok.injEq, true_and] at h
        simpa [← h, rankOf, current?, goto, hr] using rank_dispatched_lt (.inr ht) (rest.length + 1)
    · simp at h

end Lexicon.Scanner
