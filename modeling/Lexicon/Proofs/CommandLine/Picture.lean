import Lexicon.CommandLine.Run
import Lexicon.Proofs.CommandLine.Setting
import Lexicon.Proofs.FileSystem.Access
import Mathlib.Data.List.Basic

namespace Lexicon

theorem Text.slash_mem_lowerFrom {text : List Char} (h : '/' ∈ text) (behindCased : Bool) :
    '/' ∈ lowerFrom behindCased text := by
  induction text generalizing behindCased with
  | nil => exact h
  | cons c text ih =>
    rw [lowerFrom, List.mem_append]
    obtain rfl | h := List.mem_cons.1 h
    · left
      have hlower : lowerChar '/' = ['/'] := by decide +kernel
      rw [if_neg (by simp), hlower]
      exact List.mem_cons_self
    · exact .inr (ih h _)

theorem Diagram.slash_not_mem_ending {format : String} (h : Text.lowerCase format ∈ formats) :
    '/' ∉ ("." ++ Text.lowerCase format).toList ∧ '/' ∉ ("." ++ format).toList := by
  have hall : ∀ known ∈ formats, '/' ∉ known.toList := by simp [formats]
  have hformat : '/' ∉ format.toList := by
    intro hslash
    apply hall _ h
    rw [Text.lowerCase, String.toList_ofList]
    exact Text.slash_mem_lowerFrom hslash false
  have hending : ∀ name : String, '/' ∉ name.toList → '/' ∉ ("." ++ name).toList := by
    intro name hname
    rw [String.toList_append, List.mem_append, not_or]
    exact ⟨by decide, hname⟩
  exact ⟨hending _ (hall _ h), hending _ hformat⟩

namespace Picture

variable {renderer : Option Renderer} {files later : FileSystem} {path : String}
  {format : Option String}

theorem formatOf_eq_ok {known : String} (h : formatOf format = .ok known) :
    ∃ name, format = some name ∧ Text.lowerCase name ∈ Diagram.formats ∧ known = Text.lowerCase name := by
  cases format with
  | none => cases h
  | some name =>
    simp only [formatOf, Diagram.formatOf] at h
    split_ifs at h with hformat
    · exact ⟨name, rfl, List.contains_iff_mem.1 hformat, (Except.ok.inj h).symm⟩
    · cases h

/-- A picture was drawn beside a path, in a directory: the picture is there, the path itself has no file,
and all other files are as they were. -/
structure DrawnBeside (files later : FileSystem) (path ending : String) (picture : ByteArray)
    (above : Location) : Prop where
  within : later.PlacesIn path above
  beside : later.PlacesIn (path ++ ending) above
  name : FileSystem.lastName (path ++ ending) = FileSystem.lastName path ++ ending
  apart : FileSystem.lastName path ≠ FileSystem.lastName path ++ ending
  keeps : files.Keeps
    [above ++ [FileSystem.lastName path], above ++ [FileSystem.lastName path ++ ending]] later
  gone : later.root.find? (above ++ [FileSystem.lastName path]) = none
  there : later.content? (above ++ [FileSystem.lastName path ++ ending]) = some picture
  readable : later.read (path ++ ending) = .ok picture

theorem drawnBeside {middle written : FileSystem} {ending : String} {source picture : ByteArray}
    (hsave : files.save path source = (.ok (), middle))
    (hwrite : middle.write (path ++ ending) picture = .ok written) (hending : ending ≠ "")
    (hslash : '/' ∉ ending.toList) :
    ∃ above, DrawnBeside files (written.delete path) path ending picture above := by
  obtain ⟨above, hpath, hsaved, hsource⟩ := FileSystem.save_eq_ok hsave
  obtain ⟨other, hbeside, hwritten, hpicture⟩ := FileSystem.write_eq_ok hwrite
  obtain ⟨rfl, hname⟩ := hpath.of_append hbeside hslash
  rw [hname] at hwritten hpicture
  have hapart : FileSystem.lastName path ≠ FileSystem.lastName path ++ ending := by
    intro h
    rw [← String.toList_inj, String.toList_append, List.self_eq_append_right] at h
    exact hending (String.toList_eq_nil_iff.1 h)
  have hne : other ++ [FileSystem.lastName path] ≠ other ++ [FileSystem.lastName path ++ ending] :=
    fun h => hapart (List.singleton_inj.1 (List.append_cancel_left h))
  have hsource' := (hwritten.content? (by simpa using hne)).trans hsource
  obtain ⟨hdeleted, hgone⟩ := FileSystem.delete_of_placesIn (hpath.keeps hwritten) hsource'
  have hkept := hwritten.trans hdeleted
  have hthere := (hdeleted.content? (by simpa using hne.symm)).trans hpicture
  have hplaces := hbeside.keeps hkept
  have hreadable : (written.delete path).read (path ++ ending) = .ok picture := by
    apply hplaces.read (FileSystem.holdsNull_of_write hwrite)
    rwa [hname]
  refine ⟨other, hpath.keeps hkept, hplaces, hname, hapart, ?_, hgone, hthere, hreadable⟩
  exact (hsaved.trans hkept).mono (by simp)

namespace DrawnBeside

variable {ending : String} {picture : ByteArray} {above : Location}

theorem ne (h : DrawnBeside files later path ending picture above) :
    above ++ [FileSystem.lastName path] ≠ above ++ [FileSystem.lastName path ++ ending] :=
  fun hsame => h.apart (List.singleton_inj.1 (List.append_cancel_left hsame))

theorem placeOfSource (h : DrawnBeside files later path ending picture above) :
    later.placeOfFile path = .ok (above ++ [FileSystem.lastName path]) := by
  apply h.within.placeOfFile
  rintro ⟨entries, hentries⟩
  rw [h.gone] at hentries
  cases hentries

theorem placeOfPicture (h : DrawnBeside files later path ending picture above) :
    later.placeOfFile (path ++ ending) = .ok (above ++ [FileSystem.lastName path ++ ending]) := by
  have hplace := h.beside.placeOfFile
  rw [h.name] at hplace
  exact hplace (FileSystem.not_hasDirectory h.there)

theorem content?_eq (h : DrawnBeside files later path ending picture above) (location : Location) :
    later.content? location =
      if location = above ++ [FileSystem.lastName path ++ ending] then some picture
      else if location = above ++ [FileSystem.lastName path] then none
      else files.content? location := by
  split_ifs with hpicture hsource
  · rw [hpicture]
    exact h.there
  · rw [hsource]
    exact FileSystem.content?_eq_none h.gone
  · apply h.keeps.content?
    rw [List.mem_cons, List.mem_singleton, not_or]
    exact ⟨hsource, hpicture⟩

theorem of_read (h : DrawnBeside files later path ending picture above) {other : String}
    (hslash : '/' ∉ other.toList) (hne : other ≠ ending) {content : ByteArray}
    (hread : later.read (path ++ other) = .ok content) :
    ∃ location, later.placeOfFile (path ++ other) = .ok location ∧
      files.content? location = some content := by
  obtain ⟨directory, hplaces, hcontent⟩ := FileSystem.read_eq_ok hread
  refine ⟨_, hplaces.placeOfFile (FileSystem.not_hasDirectory hcontent), ?_⟩
  obtain ⟨rfl, hname⟩ := h.within.of_append hplaces hslash
  rw [h.content?_eq] at hcontent
  split_ifs at hcontent with hpicture
  · have hnames := List.singleton_inj.1 (List.append_cancel_left hpicture)
    rw [hname, String.append_right_inj] at hnames
    exact absurd hnames hne
  · exact hcontent

end DrawnBeside

theorem draw_eq_ok (h : draw renderer files path format = (.ok (), later)) :
    ∃ name render above, format = some name ∧ renderer = some render ∧
      Text.lowerCase name ∈ Diagram.formats ∧
      DrawnBeside files later path ("." ++ Text.lowerCase name)
        (render (Text.lowerCase name) Diagram.machine.render.toUTF8) above := by
  unfold draw at h
  cases hf : formatOf format with
  | error fault =>
    rw [hf] at h
    cases h
  | ok known =>
    obtain ⟨name, rfl, hformat, rfl⟩ := formatOf_eq_ok hf
    obtain ⟨hslash, -⟩ := Diagram.slash_not_mem_ending hformat
    rw [hf] at h
    dsimp only at h
    cases hsave : files.save path Diagram.machine.render.toUTF8 with
    | mk saved middle =>
      rw [hsave] at h
      cases saved with
      | error fault => cases h
      | ok saved =>
        cases renderer with
        | none => cases h
        | some render =>
          dsimp only at h
          cases hwrite : middle.write s!"{path}.{Text.lowerCase name}"
              (render (Text.lowerCase name) Diagram.machine.render.toUTF8) with
          | error fault =>
            rw [hwrite] at h
            cases h
          | ok written =>
            rw [hwrite] at h
            cases h
            have hsame : s!"{path}.{Text.lowerCase name}" = path ++ ("." ++ Text.lowerCase name) :=
              String.append_assoc
            rw [hsame] at hwrite
            have hne : "." ++ Text.lowerCase name ≠ "" := by
              rw [ne_eq, String.append_eq_empty_iff]
              exact fun h => absurd h.1 (by decide)
            obtain ⟨above, hdrawn⟩ := drawnBeside hsave hwrite hne hslash
            exact ⟨name, render, above, rfl, rfl, hformat, hdrawn⟩

end Picture

namespace CommandLine

theorem ofWords_picture (path format : String) :
    Options.ofWords ["--viz-fsm=" ++ path, "--viz-format=" ++ format] =
      .ok { vizFsm := (Options.kept path).getD "", vizFormat := Options.kept format } := by
  let settings : List Setting := [⟨.vizFsm, some path, rfl⟩, ⟨.vizFormat, some format, rfl⟩]
  have hsettings : ∀ setting ∈ settings, setting = ⟨.vizFsm, some path, rfl⟩ ∨
      setting = ⟨.vizFormat, some format, rfl⟩ := by
    intro setting hs
    simpa [settings] using hs
  have hhelp : ∀ setting ∈ settings, setting.switch ≠ .help := by
    intro setting hs
    obtain rfl | rfl := hsettings setting hs <;> nofun
  have hsource : ∀ setting ∈ settings, setting.switch.isSource = true → setting.switch = .file := by
    intro setting hs
    obtain rfl | rfl := hsettings setting hs <;> nofun
  exact Options.ofWords_map .file hhelp hsource

theorem kept_eq {value : String} (h : (Options.kept value).getD "" ≠ "") :
    Options.kept value = some value := by
  unfold Options.kept at h ⊢
  split_ifs at h ⊢
  · exact absurd rfl h
  · rfl

theorem head_append_bytes {first second : String} {byte : UInt8}
    (h : first.toByteArray.data.toList.head? = some byte) :
    (first ++ second).toByteArray.data.toList.head? = some byte := by
  rw [String.toByteArray_append, ByteArray.data_append, Array.toList_append, List.head?_append, h]
  rfl

-- By their bytes, since to list the characters of a text this long is slow.
theorem help_ne_wrote (path format : String) :
    help ≠ s!"Wrote scanner visualization to {path}.{format}\n" := by
  have hhelp : help.toByteArray.data.toList.head? = some 'u'.toUInt8 := by
    rw [help]
    apply head_append_bytes
    decide +kernel
  have hwrote : s!"Wrote scanner visualization to {path}.{format}\n".toByteArray.data.toList.head? =
      some 'W'.toUInt8 := by
    repeat apply head_append_bytes
    decide +kernel
  intro h
  rw [← h, hhelp] at hwrote
  exact absurd hwrote (by decide)

/-- A run that ends well and says that it wrote a picture has drawn it. -/
theorem draw_of_said {path format : String} {world : World}
    (hending : (run ["--viz-fsm=" ++ path, "--viz-format=" ++ format] world).ending = .finished 0)
    (hsaid : (run ["--viz-fsm=" ++ path, "--viz-format=" ++ format] world).output =
      s!"Wrote scanner visualization to {path}.{format}\n") :
    Picture.draw world.renderer world.files path (Options.kept format) =
      (.ok (), (run ["--viz-fsm=" ++ path, "--viz-format=" ++ format] world).files) := by
  simp only [run, ofWords_picture] at hending hsaid ⊢
  by_cases hnone : (Options.kept path).getD "" = ""
  · simp only [carryOut, illustrate, work, hnone, Bool.false_eq_true, if_true, if_false, ne_eq,
      not_true, String.empty_append] at hsaid
    exact absurd hsaid (help_ne_wrote path format)
  · have hpath : (Options.kept path).getD "" = path := by rw [kept_eq hnone, Option.getD_some]
    rw [hpath] at hending hsaid hnone ⊢
    cases hd : Picture.draw world.renderer world.files path (Options.kept format) with
    | mk result later =>
      cases result with
      | error fault =>
        simp only [carryOut, illustrate, hnone, hd, Bool.false_eq_true, if_false] at hending
        cases hending
      | ok drawn =>
        simp only [carryOut, illustrate, work, hnone, hd, Bool.false_eq_true, if_true, if_false, ne_eq,
          not_true]

/-- A run that says that it wrote a picture has drawn it beside the path, by the name of the format in
lower case. A file at the path itself is lost, whatever it was, and all others are as they were; so there
is nothing by the name that is said, if that has a capital, but what was there before. -/
theorem run_vizFsm {path format : String} {world : World}
    (hending : (run ["--viz-fsm=" ++ path, "--viz-format=" ++ format] world).ending = .finished 0)
    (hsaid : (run ["--viz-fsm=" ++ path, "--viz-format=" ++ format] world).output =
      s!"Wrote scanner visualization to {path}.{format}\n") :
    let files := (run ["--viz-fsm=" ++ path, "--viz-format=" ++ format] world).files
    ∃ render source target, world.renderer = some render ∧
      let picture := render (Text.lowerCase format) Diagram.machine.render.toUTF8
      files.placeOfFile path = .ok source ∧
      files.placeOfFile s!"{path}.{Text.lowerCase format}" = .ok target ∧ source ≠ target ∧
      files.read s!"{path}.{Text.lowerCase format}" = .ok picture ∧
      (∀ location, files.content? location =
        if location = target then some picture else if location = source then none
        else world.files.content? location) ∧
      ∀ content, Text.lowerCase format ≠ format →
        files.read s!"{path}.{format}" = .ok content →
          ∃ location, files.placeOfFile s!"{path}.{format}" = .ok location ∧
            world.files.content? location = some content := by
  intro files
  have hdraw := draw_of_said hending hsaid
  obtain ⟨name, render, above, hname, hrender, hformat, hdrawn⟩ := Picture.draw_eq_ok hdraw
  obtain rfl : name = format := by
    unfold Options.kept at hname
    split_ifs at hname
    exact (Option.some.inj hname).symm
  have hpicture : s!"{path}.{Text.lowerCase name}" = path ++ ("." ++ Text.lowerCase name) :=
    String.append_assoc
  have hprinted : s!"{path}.{name}" = path ++ ("." ++ name) := String.append_assoc
  rw [hpicture, hprinted]
  refine ⟨render, _, _, hrender, hdrawn.placeOfSource, hdrawn.placeOfPicture, hdrawn.ne, hdrawn.readable,
    hdrawn.content?_eq, ?_⟩
  intro content hcapital hread
  obtain ⟨-, hslash⟩ := Diagram.slash_not_mem_ending hformat
  have hne : "." ++ name ≠ "." ++ Text.lowerCase name := by
    rw [ne_eq, String.append_right_inj]
    exact hcapital.symm
  exact hdrawn.of_read hslash hne hread

theorem run_vizFsm_capitals :
    let files := FileSystem.put {} ["out"] (.file ⟨#[1]⟩)
    let copy : Picture.Renderer := fun _ source => source
    let outcome := run ["--viz-fsm=out", "--viz-format=PNG"] { files, renderer := copy }
    outcome.ending = .finished 0 ∧ outcome.output = "Wrote scanner visualization to out.PNG\n" ∧
      outcome.files.read "out.png" = .ok Diagram.machine.render.toUTF8 ∧
      files.content? ["out"] = some ⟨#[1]⟩ ∧ outcome.files.content? ["out"] = none ∧
      ∀ content, outcome.files.read "out.PNG" ≠ .ok content := by
  intro files copy outcome
  have hending : outcome.ending = .finished 0 := by decide +kernel
  have hsaid : outcome.output = "Wrote scanner visualization to out.PNG\n" := by decide +kernel
  obtain ⟨render, source, target, hrender, hsource, htarget, hne, hread, hframe, hprinted⟩ :=
    @run_vizFsm "out" "PNG" { files, renderer := copy } hending hsaid
  have hlower : Text.lowerCase "PNG" = "png" := by decide +kernel
  obtain rfl : copy = render := Option.some.inj hrender
  obtain rfl : source = ["out"] := by
    have h : outcome.files.placeOfFile "out" = .ok ["out"] := by decide +kernel
    exact Except.ok.inj (hsource.symm.trans h)
  rw [hlower] at hread hprinted
  have hgone := hframe ["out"]
  rw [if_neg hne, if_pos rfl] at hgone
  refine ⟨hending, hsaid, hread, rfl, hgone, ?_⟩
  intro content hcontent
  obtain ⟨location, hlocation, hbefore⟩ := hprinted content (by decide) hcontent
  have h : outcome.files.placeOfFile "out.PNG" = .ok ["out.PNG"] := by decide +kernel
  obtain rfl : location = ["out.PNG"] := Except.ok.inj (hlocation.symm.trans h)
  cases hbefore

/-- Not every picture is by the name that is said, and not every other file is kept. -/
theorem not_forall_said_is_there : ¬ ∀ (path format : String) (world : World),
    let outcome := run ["--viz-fsm=" ++ path, "--viz-format=" ++ format] world
    outcome.ending = .finished 0 →
    outcome.output = s!"Wrote scanner visualization to {path}.{format}\n" →
      ∃ target picture, outcome.files.placeOfFile s!"{path}.{format}" = .ok target ∧
        outcome.files.content? target = some picture ∧
        ∀ location content, location ≠ target → world.files.content? location = some content →
          outcome.files.content? location = some content := by
  intro h
  let files := FileSystem.put {} ["out"] (.file ⟨#[1]⟩)
  let copy : Picture.Renderer := fun _ source => source
  obtain ⟨target, picture, htarget, hpicture, -⟩ :=
    h "out" "PNG" { files, renderer := copy } (by decide +kernel) (by decide +kernel)
  let outcome := run ["--viz-fsm=out", "--viz-format=PNG"] { files, renderer := copy }
  have hplace : outcome.files.placeOfFile "out.PNG" = .ok ["out.PNG"] := by decide +kernel
  have hnothing : outcome.files.content? ["out.PNG"] = none := by decide +kernel
  obtain rfl : target = ["out.PNG"] := Except.ok.inj (htarget.symm.trans hplace)
  cases hpicture.symm.trans hnothing

end CommandLine

end Lexicon
