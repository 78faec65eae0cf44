import Lexicon.CommandLine.Options
import Mathlib.Tactic.SplitIfs

namespace Lexicon.CommandLine

namespace Switch

def longName : Switch → String
  | .help => "--help"
  | .file => "--file"
  | .interactive => "--interactive"
  | .demo => "--demo"
  | .printTokens => "--print-tokens"
  | .noTables => "--no-tables"
  | .dumpTables => "--dump-tables"
  | .collectErrors => "--collect-errors"
  | .vizFsm => "--viz-fsm"
  | .vizFormat => "--viz-format"
  | .verbose => "--verbose"

theorem named?_longName (switch : Switch) : named? switch.longName = some switch := by
  cases switch <;> decide

theorem equals_not_mem_longName (switch : Switch) : '=' ∉ switch.longName.toList := by
  cases switch <;> decide

theorem exists_longName (switch : Switch) :
    ∃ c rest, switch.longName.toList = '-' :: '-' :: c :: rest := by
  cases switch <;> exact ⟨_, _, rfl⟩

end Switch

/-- An option, with a value if it takes one. -/
structure Setting where
  switch : Switch
  value : Option String
  fits : value.isSome = switch.takesValue

namespace Setting

def word (setting : Setting) : String :=
  match setting.value with
  | some value => setting.switch.longName ++ "=" ++ value
  | none => setting.switch.longName

def read (setting : Setting) : Word :=
  match setting.value with
  | some value => .assignment setting.switch value
  | none => .option setting.switch

theorem takeWhile_name {name : List Char} (h : '=' ∉ name) (rest : List Char) :
    (name ++ rest).takeWhile (· ≠ '=') = name ++ rest.takeWhile (· ≠ '=') := by
  apply List.takeWhile_append_of_pos
  intro c hc
  rw [decide_eq_true_eq]
  rintro rfl
  exact h hc

theorem splitEquals_append {name : List Char} (h : '=' ∉ name) (value : List Char) :
    splitEquals (name ++ '=' :: value) = (name, some value) := by
  have htake := takeWhile_name h ('=' :: value)
  rw [List.takeWhile_cons_of_neg (by decide), List.append_nil] at htake
  simp only [splitEquals, htake, List.drop_left]

theorem splitEquals_self {name : List Char} (h : '=' ∉ name) : splitEquals name = (name, none) := by
  have htake := takeWhile_name h []
  rw [List.append_nil, List.takeWhile_nil, List.append_nil] at htake
  simp only [splitEquals, htake, List.drop_length]

theorem splitEquals_word (setting : Setting) :
    splitEquals setting.word.toList =
      (setting.switch.longName.toList, setting.value.map String.toList) := by
  have hname := setting.switch.equals_not_mem_longName
  unfold word
  cases setting.value with
  | none => exact splitEquals_self hname
  | some value =>
    have hequals : "=".toList = ['='] := rfl
    rw [String.toList_append, String.toList_append, hequals, List.append_assoc, List.singleton_append]
    exact splitEquals_append hname value.toList

theorem exists_word (setting : Setting) : ∃ c rest, setting.word.toList = '-' :: '-' :: c :: rest := by
  obtain ⟨c, rest, hname⟩ := setting.switch.exists_longName
  unfold word
  cases setting.value with
  | none => exact ⟨c, rest, hname⟩
  | some value =>
    rw [String.toList_append, String.toList_append, hname]
    exact ⟨c, _, rfl⟩

theorem wordOf_word (setting : Setting) : wordOf setting.word = .ok setting.read := by
  obtain ⟨c, rest, hword⟩ := setting.exists_word
  have hsplit := setting.splitEquals_word
  have hnamed := setting.switch.named?_longName
  rw [hword] at hsplit
  have hoption : optionOf setting.word = .ok setting.read := by
    simp only [optionOf, hword, hsplit, List.take_succ_cons, List.take_zero, if_true,
      String.ofList_toList, hnamed]
    unfold read
    cases setting.value with
    | none => rfl
    | some value => simp only [Option.map_some, String.ofList_toList]
  unfold wordOf
  rw [hword]
  exact hoption

theorem wordsOf_map (settings : List Setting) :
    wordsOf (settings.map word) = .ok (settings.map fun setting => (setting.word, setting.read)) := by
  induction settings with
  | nil => rfl
  | cons setting settings ih =>
    have hne : setting.word ≠ "--" := by
      intro he
      obtain ⟨c, rest, hword⟩ := setting.exists_word
      rw [he] at hword
      cases hword
    rw [List.map_cons, wordsOf, wordOf_word, ih]
    · rfl
    · exact hne

theorem read_injective : Function.Injective read := by
  rintro ⟨switch, value, fits⟩ ⟨switch', value', fits'⟩ h
  unfold read at h
  cases value <;> cases value' <;> cases h <;> rfl

theorem word_injective : Function.Injective word := by
  intro setting setting' h
  apply read_injective
  have hread := wordOf_word setting
  rw [h, wordOf_word, Except.ok.injEq] at hread
  exact hread.symm

theorem demand_read (setting : Setting) :
    setting.read.demand = .ok (some { last := setting.switch, value := setting.value }) := by
  obtain ⟨switch, value, fits⟩ := setting
  unfold read
  cases value with
  | none => rfl
  | some value =>
    exact if_pos fits.symm

end Setting

namespace Options

def apply (options : Options) (setting : Setting) : Options :=
  options.set (setting.value.getD "") setting.switch

variable {reading : Reading} {source : Switch} {settings : List Setting} {setting : Setting}

theorem Reading.take_setting (hhelp : setting.switch ≠ .help)
    (hsource : setting.switch.isSource = true → setting.switch = source)
    (hreading : reading.source = none ∨ reading.source = some source) :
    ∃ later : Reading, reading.take setting.switch (setting.value.getD "") = .ok later ∧
      (later.source = none ∨ later.source = some source) ∧
      later.options = reading.options.apply setting ∧
      later.unrecognized = reading.unrecognized := by
  simp only [Reading.take, if_neg hhelp]
  split_ifs with hnone
  · exact ⟨_, rfl, hreading, rfl, rfl⟩
  · have hsame : setting.switch = source := hsource (by simpa using hnone)
    obtain hr | hr := hreading
    · simp only [hr]
      exact ⟨_, rfl, .inr (by rw [hsame]), rfl, rfl⟩
    · simp only [hr, if_pos hsame]
      exact ⟨_, rfl, .inr rfl, rfl, rfl⟩

theorem Reading.run_setting (rest : List (String × Word)) :
    reading.run ((setting.word, setting.read) :: rest) =
      (reading.take setting.switch (setting.value.getD "")).bind (·.run rest) := by
  rw [Reading.run, setting.demand_read]
  obtain ⟨switch, value, fits⟩ := setting
  cases value with
  | none =>
    have hflag : ¬ switch.takesValue = true := by simp [← fits]
    simp only [if_neg hflag, takeFlags, List.nil_append, List.foldlM_cons, List.foldlM_nil, bind_pure]
    rfl
  | some value => rfl

theorem Reading.run_settings (hhelp : ∀ setting ∈ settings, setting.switch ≠ .help)
    (hsource : ∀ setting ∈ settings, setting.switch.isSource = true → setting.switch = source)
    (hreading : reading.source = none ∨ reading.source = some source) :
    ∃ later : Reading,
      reading.run (settings.map fun setting => (setting.word, setting.read)) = .ok later ∧
        later.options = settings.foldl apply reading.options ∧
        later.unrecognized = reading.unrecognized := by
  induction settings generalizing reading with
  | nil => exact ⟨reading, rfl, rfl, rfl⟩
  | cons setting settings ih =>
    obtain ⟨hhelp, hhelps⟩ := List.forall_mem_cons.1 hhelp
    obtain ⟨hsource, hsources⟩ := List.forall_mem_cons.1 hsource
    obtain ⟨next, htake, hnext, hoptions, hunrecognized⟩ := take_setting hhelp hsource hreading
    obtain ⟨later, hrun, hlater, hrest⟩ := ih hhelps hsources hnext
    refine ⟨later, ?_, ?_, hrest.trans hunrecognized⟩
    · rw [List.map_cons, run_setting, htake]
      exact hrun
    · rw [hlater, hoptions]
      rfl

/-- Settings in words are applied in turn, as long as no two of them name different sources. -/
theorem ofWords_map (source : Switch)
    (hhelp : ∀ setting ∈ settings, setting.switch ≠ .help)
    (hsource : ∀ setting ∈ settings, setting.switch.isSource = true → setting.switch = source) :
    ofWords (settings.map Setting.word) = .ok (settings.foldl apply {}) := by
  obtain ⟨later, hrun, hoptions, hunrecognized⟩ :=
    @Reading.run_settings {} source settings hhelp hsource (.inl rfl)
  have hnone : later.unrecognized.isEmpty = true := by
    rw [hunrecognized]
    rfl
  rw [ofWords, Setting.wordsOf_map]
  simp only [hrun, bind, Except.bind, hnone, if_true, hoptions]

variable {α : Type} (f : Options → α) {given : Setting}

theorem foldl_apply_of_not_mem
    (hkeep : ∀ setting ∈ settings, ∀ options : Options, f (options.apply setting) = f options)
    (options : Options) : f (settings.foldl apply options) = f options := by
  induction settings generalizing options with
  | nil => rfl
  | cons setting settings ih =>
    obtain ⟨hsetting, hsettings⟩ := List.forall_mem_cons.1 hkeep
    rw [List.foldl_cons, ih hsettings, hsetting]

theorem foldl_apply_of_mem {value : α} (hgiven : given ∈ settings)
    (hset : ∀ options : Options, f (options.apply given) = value)
    (hkeep : ∀ setting ∈ settings, setting ≠ given →
      ∀ options : Options, f (options.apply setting) = f options) (options : Options) :
    f (settings.foldl apply options) = value := by
  induction settings generalizing options with
  | nil => exact absurd hgiven List.not_mem_nil
  | cons setting settings ih =>
    obtain ⟨hsetting, hsettings⟩ := List.forall_mem_cons.1 hkeep
    rw [List.foldl_cons]
    by_cases hmem : given ∈ settings
    · exact ih hmem hsettings _
    · obtain rfl : given = setting := (List.mem_cons.1 hgiven).resolve_right hmem
      rw [foldl_apply_of_not_mem f, hset]
      intro setting hs
      exact hsettings setting hs (ne_of_mem_of_not_mem hs hmem)

end Options

theorem exists_settings {words : List String} {known : List Setting}
    (h : words ⊆ known.map Setting.word) :
    ∃ settings ⊆ known, words = settings.map Setting.word := by
  induction words with
  | nil => exact ⟨[], List.nil_subset _, rfl⟩
  | cons word words ih =>
    obtain ⟨hword, hwords⟩ := List.cons_subset.1 h
    obtain ⟨setting, hsetting, rfl⟩ := List.mem_map.1 hword
    obtain ⟨settings, hsettings, rfl⟩ := ih hwords
    exact ⟨setting :: settings, List.cons_subset.2 ⟨hsetting, hsettings⟩, rfl⟩

end Lexicon.CommandLine
