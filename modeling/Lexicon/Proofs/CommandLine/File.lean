import Lexicon.CommandLine.Run
import Lexicon.Proofs.CommandLine.Setting
import Lexicon.Proofs.FileSystem.Access
import Lexicon.Proofs.Program.Modes
import Lexicon.Proofs.Text.Utf8
import Mathlib.Data.List.Basic

namespace Lexicon

namespace Program

variable {path : String}

def dumpOf (session : Session) (text : String) : ByteArray :=
  (session.analyze text).2.dump.toUTF8

/-- The program is accepted, and its dump is written if there is a path for it. -/
def Succeeds (session : Session) (text path : String) (before after : FileSystem) : Prop :=
  session.Admits text ∧
    if path = "" then after = before else before.write path (dumpOf session text) = .ok after

theorem process_cases (settings : Settings) (hnull : FileSystem.holdsNull path = false)
    (files : FileSystem) (session : Session) (text : String) :
    let outcome := process settings path files session text
    outcome.result = .ok true ∧ Succeeds session text path files outcome.files ∨
      outcome.result = .ok false ∧ outcome.files = files ∧
        ¬ Succeeds session text path files outcome.files ∧
        ((∃ errors, errors ≠ [] ∧ outcome.output = errorLines errors) ∨
          path ≠ "" ∧ ∃ (shown : String) (fault : FileSystem.Fault), outcome.output =
            shown ++ s!"Failed to write symbol tables JSON to {path}: {fault.message}\n") := by
  intro outcome
  cases he : session.errorsIn text with
  | cons first more =>
    right
    obtain ⟨later, -, hp⟩ := process_of_errors he path files
    have hadmits : ¬ session.Admits text := by
      rw [Session.admits_iff, he]
      exact List.cons_ne_nil _ _
    simp only [outcome, hp settings, true_and]
    refine ⟨fun h => hadmits h.1, .inl ⟨_, ?_, rfl⟩⟩
    split <;> exact List.cons_ne_nil _ _
  | nil =>
    have hadmits := Session.admits_iff.2 he
    have hj := Session.judge_of_defined he settings.everyError
    by_cases hpath : path = ""
    · left
      simp only [outcome, process, hj, if_pos hpath, Succeeds, and_true]
      exact ⟨trivial, hadmits⟩
    · cases hwrite : files.write path (dumpOf session text) with
      | ok written =>
        left
        have hdump := hwrite
        unfold dumpOf at hdump
        simp only [outcome, process, hj, if_neg hpath, dump, hdump]
        exact ⟨trivial, hadmits, by rwa [if_neg hpath]⟩
      | error fault =>
        right
        obtain ⟨cause, rfl⟩ := FileSystem.refused_of_write hnull hwrite
        have hdump := hwrite
        unfold dumpOf at hdump
        have hfails : ¬ Succeeds session text path files files := by
          rintro ⟨-, hok⟩
          rw [if_neg hpath, hwrite] at hok
          cases hok
        simp only [outcome, process, hj, if_neg hpath, dump, hdump, true_and]
        exact ⟨hfails, .inr ⟨hpath, _, _, rfl⟩⟩

end Program

namespace CommandLine

variable {options : Options} {files : FileSystem}

theorem processText_cases (hnull : FileSystem.holdsNull options.dumpTables = false)
    (files : FileSystem) (text : String) :
    let outcome := processText options files text
    outcome.ending = .finished 0 ∧
        Program.Succeeds .fresh text options.dumpTables files outcome.files ∨
      outcome.ending = .finished 1 ∧ outcome.files = files ∧
        ¬ Program.Succeeds .fresh text options.dumpTables files outcome.files ∧
        ((∃ errors, errors ≠ [] ∧ outcome.output = Program.errorLines errors) ∨
          options.dumpTables ≠ "" ∧ ∃ (shown : String) (fault : FileSystem.Fault), outcome.output =
            shown ++ s!"Failed to write symbol tables JSON to {options.dumpTables}: {fault.message}\n") := by
  intro outcome
  obtain ⟨hresult, hs⟩ | ⟨hresult, hrest⟩ :=
    Program.process_cases (settings options) hnull files .fresh text
  · left
    refine ⟨?_, hs⟩
    simp only [outcome, processText, hresult, if_true]
  · right
    refine ⟨?_, hrest⟩
    simp only [outcome, processText, hresult, Bool.false_eq_true, if_false]

def Undecodable (files : FileSystem) (file : String) : Prop :=
  ∃ content, files.read file = .ok content ∧ ∀ text : String, content ≠ text.toUTF8

def Completes (file dumpPath : String) (before after : FileSystem) : Prop :=
  ∃ text : String, before.read file = .ok text.toUTF8 ∧
    Program.Succeeds .fresh (Text.unifyNewlines text) dumpPath before after

/-- An output says why the work on a file failed: by the errors of its program, or by the fault of the
file or of the dump. -/
def Explains (files : FileSystem) (file dumpPath output : String) : Prop :=
  (∃ errors, errors ≠ [] ∧ output = Program.errorLines errors) ∨
    (∃ fault, files.read file = .error fault ∧
      output = s!"Failed to read file {file}: {fault.message}\n") ∨
    dumpPath ≠ "" ∧ ∃ (shown : String) (fault : FileSystem.Fault),
      output = shown ++ s!"Failed to write symbol tables JSON to {dumpPath}: {fault.message}\n"

theorem processFile_cases (hnull : FileSystem.holdsNull options.file = false) (files : FileSystem) :
    (∃ text : String, files.read options.file = .ok text.toUTF8 ∧
      processFile options files = processText options files (Text.unifyNewlines text)) ∨
    (∃ content fault, files.read options.file = .ok content ∧
      (∀ text : String, content ≠ text.toUTF8) ∧
      processFile options files = { ending := .failed (.encoding fault), files }) ∨
    ∃ fault, files.read options.file = .error fault ∧
      processFile options files =
        { ending := .finished 1
          output := s!"Failed to read file {options.file}: {fault.message}\n"
          files } := by
  cases hread : files.read options.file with
  | error fault =>
    obtain ⟨cause, rfl⟩ := FileSystem.refused_of_read hnull hread
    right
    right
    exact ⟨_, rfl, by simp only [processFile, FileSystem.readText, hread]⟩
  | ok content =>
    cases hdecode : Text.Utf8.decode content.toList with
    | error fault =>
      right
      left
      refine ⟨content, fault, rfl, ?_, by simp only [processFile, FileSystem.readText, hread, hdecode]⟩
      intro text hcontent
      rw [← Text.Utf8.decode_eq_ok_iff, hdecode] at hcontent
      cases hcontent
    | ok text =>
      left
      refine ⟨text, ?_, by simp only [processFile, FileSystem.readText, hread, hdecode]⟩
      rw [(Text.Utf8.decode_eq_ok_iff _ _).1 hdecode]

theorem processFile_ends (hfile : FileSystem.holdsNull options.file = false)
    (hdump : FileSystem.holdsNull options.dumpTables = false) (files : FileSystem) :
    let outcome := processFile options files
    let success := Completes options.file options.dumpTables files outcome.files
    (outcome.ending = .finished 0 ↔ success) ∧
      (Undecodable files options.file →
        ∃ fault, outcome = { ending := .failed (.encoding fault), files }) ∧
      (¬ success → ¬ Undecodable files options.file →
        outcome.ending = .finished 1 ∧ outcome.files = files ∧
          Explains files options.file options.dumpTables outcome.output) := by
  intro outcome success
  -- the file holds a text, or other bytes, or cannot be read
  obtain ⟨text, hread, hp⟩ | ⟨content, fault, hread, hother, hp⟩ | ⟨fault, hread, hp⟩ :=
    processFile_cases hfile files
  · have hdecodes : ¬ Undecodable files options.file := by
      rintro ⟨content, hcontent, hother⟩
      rw [hread] at hcontent
      exact hother text (Except.ok.inj hcontent).symm
    have hsuccess : success ↔ Program.Succeeds .fresh (Text.unifyNewlines text) options.dumpTables
        files outcome.files := by
      constructor
      · rintro ⟨text', hread', h⟩
        rw [hread, Except.ok.injEq] at hread'
        rwa [String.toByteArray_inj.1 hread']
      · exact fun h => ⟨text, hread, h⟩
    have hcases := processText_cases hdump files (Text.unifyNewlines text)
    rw [← hp] at hcases
    obtain ⟨hending, hs⟩ | ⟨hending, hfiles, hfails, hsaid⟩ := hcases
    · have hs := hsuccess.2 hs
      exact ⟨⟨fun _ => hs, fun _ => hending⟩, fun h => absurd h hdecodes, fun h => absurd hs h⟩
    · refine ⟨?_, fun h => absurd h hdecodes, fun _ _ => ⟨hending, hfiles, hsaid.imp_right .inr⟩⟩
      rw [hending]
      exact ⟨nofun, fun h => absurd (hsuccess.1 h) hfails⟩
  · have hundecodable : Undecodable files options.file := ⟨content, hread, hother⟩
    have hfails : ¬ success := by
      rintro ⟨text, htext, -⟩
      rw [hread] at htext
      exact hother text (Except.ok.inj htext)
    refine ⟨?_, fun _ => ⟨fault, hp⟩, fun _ h => absurd hundecodable h⟩
    simp only [outcome, hp]
    exact ⟨nofun, fun h => absurd h hfails⟩
  · have hnone : ∀ content, files.read options.file ≠ .ok content := by
      intro content hcontent
      rw [hread] at hcontent
      cases hcontent
    have hfails : ¬ success := fun ⟨_, htext, _⟩ => hnone _ htext
    refine ⟨?_, fun ⟨_, hcontent, _⟩ => absurd hcontent (hnone _), fun _ _ => ?_⟩
    · simp only [outcome, hp]
      exact ⟨nofun, fun h => absurd h hfails⟩
    · simp only [outcome, hp, true_and]
      exact .inr (.inl ⟨fault, hread, rfl⟩)

def fileSettings (file dump : String) : List Setting :=
  [⟨.file, some file, rfl⟩, ⟨.dumpTables, some dump, rfl⟩, ⟨.printTokens, none, rfl⟩,
   ⟨.noTables, none, rfl⟩, ⟨.collectErrors, none, rfl⟩]

theorem ofWords_file {words : List String} {file dump : String}
    (hwords : words ⊆ (fileSettings file dump).map Setting.word)
    (hgiven : "--file=" ++ file ∈ words) :
    ∃ options, Options.ofWords words = .ok options ∧
      options.file = (Options.kept file).getD "" ∧
      options.dumpTables =
        (if "--dump-tables=" ++ dump ∈ words then (Options.kept dump).getD "" else "") ∧
      options.interactive = false ∧ options.demo = false ∧ options.vizFsm = "" := by
  obtain ⟨settings, hsettings, rfl⟩ := exists_settings hwords
  have hmap : ∀ setting : Setting, setting.word ∈ settings.map Setting.word ↔ setting ∈ settings :=
    fun _ => List.mem_map_of_injective Setting.word_injective
  have hfile := (hmap ⟨.file, some file, rfl⟩).1 hgiven
  have hdump : "--dump-tables=" ++ dump ∈ settings.map Setting.word ↔ _ :=
    hmap ⟨.dumpTables, some dump, rfl⟩
  have hcases : ∀ setting ∈ settings, setting ∈ fileSettings file dump := hsettings
  simp only [fileSettings, List.mem_cons, List.not_mem_nil, or_false] at hcases
  refine ⟨_, Options.ofWords_map .file ?_ ?_, ?_, ?_, ?_, ?_, ?_⟩
  · intro setting hs
    obtain rfl | rfl | rfl | rfl | rfl := hcases setting hs <;> nofun
  · intro setting hs
    obtain rfl | rfl | rfl | rfl | rfl := hcases setting hs <;> first | exact fun _ => rfl | nofun
  · apply Options.foldl_apply_of_mem Options.file hfile (fun _ => rfl)
    intro setting hs hne options
    obtain rfl | rfl | rfl | rfl | rfl := hcases setting hs <;> first | rfl | exact absurd rfl hne
  · split_ifs with hmem
    · apply Options.foldl_apply_of_mem Options.dumpTables (hdump.1 hmem) (fun _ => rfl)
      intro setting hs hne options
      obtain rfl | rfl | rfl | rfl | rfl := hcases setting hs <;> first | rfl | exact absurd rfl hne
    · rw [hdump] at hmem
      apply Options.foldl_apply_of_not_mem Options.dumpTables
      intro setting hs options
      obtain rfl | rfl | rfl | rfl | rfl := hcases setting hs <;> first | rfl | exact absurd hs hmem
  · apply Options.foldl_apply_of_not_mem Options.interactive
    intro setting hs options
    obtain rfl | rfl | rfl | rfl | rfl := hcases setting hs <;> rfl
  · apply Options.foldl_apply_of_not_mem Options.demo
    intro setting hs options
    obtain rfl | rfl | rfl | rfl | rfl := hcases setting hs <;> rfl
  · apply Options.foldl_apply_of_not_mem Options.vizFsm
    intro setting hs options
    obtain rfl | rfl | rfl | rfl | rfl := hcases setting hs <;> rfl

/-- A run on a file ends with success only if the file holds the encoding of a text that is accepted, and
the dump is written if one is asked for. Otherwise it says what failed, but not if the bytes of the file
encode no text: then it is broken off. A path that is a lone double dash asks for nothing. -/
theorem run_file {words : List String} {file dump : String} (world : World)
    (hfile : file ≠ "" ∧ FileSystem.holdsNull file = false)
    (hdump : dump ≠ "" ∧ FileSystem.holdsNull dump = false)
    (hwords : words ⊆ ["--file=" ++ file, "--dump-tables=" ++ dump, "--print-tokens", "--no-tables",
      "--collect-errors"])
    (hgiven : "--file=" ++ file ∈ words) :
    let outcome := run words world
    let dumpPath := if "--dump-tables=" ++ dump ∈ words ∧ dump ≠ "--" then dump else ""
    (file = "--" → outcome = { ending := .finished 0, output := help, files := world.files }) ∧
      (file ≠ "--" →
        let success := Completes file dumpPath world.files outcome.files
        (outcome.ending = .finished 0 ↔ success) ∧
          (Undecodable world.files file →
            ∃ fault, outcome = { ending := .failed (.encoding fault), files := world.files }) ∧
          (¬ success → ¬ Undecodable world.files file →
            outcome.ending = .finished 1 ∧ outcome.files = world.files ∧
              Explains world.files file dumpPath outcome.output)) := by
  intro outcome dumpPath
  obtain ⟨options, hoptions, hpath, hdumpPath, hinteractive, hdemo, hviz⟩ := ofWords_file hwords hgiven
  have hwork : outcome = work options world := by
    simp only [outcome, run, hoptions, carryOut, illustrate, hviz, if_true, String.empty_append]
  constructor
  · rintro rfl
    have hnone : options.file = "" := hpath
    simp only [hwork, work, hinteractive, hdemo, hviz, hnone, ne_eq, not_true, Bool.false_eq_true,
      if_false, if_true]
  · intro hdash
    obtain rfl : options.file = file := by rw [hpath, Options.kept, if_neg hdash, Option.getD_some]
    have hdumpTables : options.dumpTables = dumpPath := by
      rw [hdumpPath, Options.kept]
      by_cases hmem : "--dump-tables=" ++ dump ∈ words <;> by_cases hdash' : dump = "--" <;>
        simp [dumpPath, hmem, hdash']
    have hnull : FileSystem.holdsNull options.dumpTables = false := by
      rw [hdumpTables]
      unfold dumpPath
      split_ifs
      · exact hdump.2
      · rfl
    have hrun : outcome = processFile options world.files := by
      simp only [hwork, work, hinteractive, if_pos hfile.1, Bool.false_eq_true, if_false]
    rw [hrun, ← hdumpTables]
    exact processFile_ends hfile.2 hnull world.files

theorem run_file_invalidStart :
    let files := FileSystem.put {} ["p"] (.file ⟨#[0xFF]⟩)
    files.read "p" = .ok ⟨#[0xFF]⟩ ∧ (∀ text : String, ⟨#[0xFF]⟩ ≠ text.toUTF8) ∧
      ∃ fault, run ["--file=p"] { files } = { ending := .failed (.encoding fault), files } := by
  intro files
  have hread : files.read "p" = .ok ⟨#[0xFF]⟩ := by rfl
  have hother : ∀ text : String, ⟨#[0xFF]⟩ ≠ text.toUTF8 := by
    intro text h
    rw [← Text.Utf8.decode_eq_ok_iff, Text.Utf8.toList_eq] at h
    cases h
  obtain ⟨-, hrun⟩ := @run_file ["--file=p"] "p" "d" { files } (by decide) (by decide) (by decide)
    (by decide)
  obtain ⟨-, hbroken, -⟩ := hrun (by decide)
  exact ⟨hread, hother, hbroken ⟨_, hread, hother⟩⟩

/-- Not every run on a file ends with a code. -/
theorem not_forall_finished : ¬ ∀ (file : String) (world : World), file ≠ "" →
    FileSystem.holdsNull file = false →
      ∃ code, (run ["--file=" ++ file] world).ending = .finished code := by
  intro h
  obtain ⟨code, hcode⟩ :=
    h "p" { files := FileSystem.put {} ["p"] (.file ⟨#[0xFF]⟩) } (by decide) (by decide)
  have hending : (run ["--file=p"] { files := FileSystem.put {} ["p"] (.file ⟨#[0xFF]⟩) }).ending =
      .failed (.encoding ⟨0xFF, 0, 1, .invalidStart⟩) := by decide +kernel
  cases hending.symm.trans hcode

end CommandLine

end Lexicon
