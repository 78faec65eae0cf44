import Lexicon.FileSystem.Path
import Lexicon.Proofs.FileSystem.Entry

namespace Lexicon.FileSystem

variable {files after later : FileSystem} {trail reached : Trail} {names : List String}
  {above other : Location} {places more : List Location} {path : String}

def content? (files : FileSystem) (location : Location) : Option ByteArray :=
  files.root.content? location

structure Keeps (places : List Location) (files later : FileSystem) : Prop where
  root : files.root.Keeps places later.root
  workingDirectory : later.workingDirectory = files.workingDirectory

theorem Keeps.refl (files : FileSystem) : files.Keeps [] files :=
  ⟨.refl files.root, rfl⟩

theorem Keeps.trans (h : files.Keeps places after) (h' : after.Keeps more later) :
    files.Keeps (places ++ more) later :=
  ⟨h.root.trans h'.root, h'.workingDirectory.trans h.workingDirectory⟩

theorem Keeps.mono (h : files.Keeps places later) (hmore : places ⊆ more) : files.Keeps more later :=
  ⟨h.root.mono hmore, h.workingDirectory⟩

theorem Keeps.content? (h : files.Keeps places later) (hl : above ∉ places) :
    later.content? above = files.content? above :=
  h.root.contents above hl

inductive Leads (files : FileSystem) : Trail → Prop
  | root : files.Leads []
  | step {trail entries name entry} : files.Leads trail →
      files.entryAt trail = .directory entries → entries.lookup name = some entry →
      files.Leads ((name, entry) :: trail)

theorem Leads.tail (h : files.Leads trail) : files.Leads trail.tail := by
  cases h with
  | root => exact .root
  | step h _ _ => exact h

theorem location_cons (name : String) (entry : Entry) (trail : Trail) :
    Trail.location ((name, entry) :: trail) = trail.location ++ [name] := by
  simp only [Trail.location, List.map_cons, List.reverse_cons]

theorem location_tail (trail : Trail) : Trail.location trail.tail = trail.location.dropLast := by
  cases trail with
  | nil => rfl
  | cons last trail => rw [location_cons, List.dropLast_concat, List.tail_cons]

theorem Leads.find? (h : files.Leads trail) :
    files.root.find? trail.location = some (files.entryAt trail) := by
  induction h with
  | root => rfl
  | step _ hd hl ih =>
    rw [location_cons, Entry.find?_append, ih, hd, Option.bind_some, Entry.find?_singleton]
    exact hl

theorem find?_inside {entries : List (String × Entry)}
    (h : files.root.find? above = some (.directory entries)) (name : String) :
    files.root.find? (above ++ [name]) = entries.lookup name := by
  rw [Entry.find?_append, h, Option.bind_some, Entry.find?_singleton, Entry.inside]

theorem follow_append (files : FileSystem) (trail : Trail) (names more : List String) :
    files.follow trail (names ++ more) = (files.follow trail names).bind (files.follow · more) := by
  induction names generalizing trail with
  | nil => rfl
  | cons name names ih =>
    rw [List.cons_append, follow, follow]
    cases files.entryAt trail with
    | file content => rfl
    | directory entries =>
      dsimp only
      split_ifs
      · exact ih trail
      · exact ih trail.tail
      · rfl
      · cases entries.lookup name with
        | none => rfl
        | some entry => exact ih _

/-- Names that lead from one directory to another, and the place of that one. -/
inductive Walks (files : FileSystem) : Location → List String → Location → Prop
  | stay {place} : files.root.HasDirectory place → files.Walks place [] place
  | here {place name names reached} : files.root.HasDirectory place →
      (name = "" || name = ".") = true → files.Walks place names reached →
      files.Walks place (name :: names) reached
  | up {place names reached} : files.root.HasDirectory place → files.Walks place.dropLast names reached →
      files.Walks place (".." :: names) reached
  | down {place name names reached} : files.root.HasDirectory place →
      isDirectoryName name = false → isTooLong name = false →
      files.Walks (place ++ [name]) names reached → files.Walks place (name :: names) reached

variable {place found : Location}

theorem Walks.keeps (h : files.Walks place names found) (hk : files.Keeps places later) :
    later.Walks place names found := by
  induction h with
  | stay hd => exact .stay (hk.root.directories _ hd)
  | here hd hname _ ih => exact .here (hk.root.directories _ hd) hname ih
  | up hd _ ih => exact .up (hk.root.directories _ hd) ih
  | down hd hname hlong _ ih => exact .down (hk.root.directories _ hd) hname hlong ih

theorem Walks.start (h : files.Walks place names found) : files.root.HasDirectory place := by
  cases h with
  | stay hd | here hd _ _ | up hd _ | down hd _ _ _ => exact hd

theorem Walks.hasDirectory (h : files.Walks place names found) : files.root.HasDirectory found := by
  induction h with
  | stay hd => exact hd
  | here _ _ _ ih | up _ _ ih | down _ _ _ _ ih => exact ih

theorem Leads.hasDirectory {entries : List (String × Entry)} (h : files.Leads trail)
    (hd : files.entryAt trail = .directory entries) : files.root.HasDirectory trail.location :=
  ⟨entries, hd ▸ h.find?⟩

theorem Leads.entryAt (h : files.Leads trail) (hd : files.root.HasDirectory trail.location) :
    ∃ entries, files.entryAt trail = .directory entries := by
  obtain ⟨entries, hentries⟩ := hd
  rw [h.find?] at hentries
  exact ⟨entries, Option.some.inj hentries⟩

theorem Leads.entryAt_tail {entries : List (String × Entry)} (h : files.Leads trail)
    (hd : files.entryAt trail = .directory entries) :
    ∃ entries, files.entryAt trail.tail = .directory entries := by
  cases h with
  | root => exact ⟨entries, hd⟩
  | step _ habove _ => exact ⟨_, habove⟩

theorem not_isDirectoryName {name : String} : isDirectoryName name = false ↔
    ¬ (name = "" || name = ".") = true ∧ name ≠ ".." := by
  simp [isDirectoryName]

theorem follow_down {name : String} {entry : Entry} {entries : List (String × Entry)}
    (hd : files.entryAt trail = .directory entries) (hname : isDirectoryName name = false)
    (hlong : isTooLong name = false) (hl : entries.lookup name = some entry) (names : List String) :
    files.follow trail (name :: names) = files.follow ((name, entry) :: trail) names := by
  obtain ⟨hhere, hup⟩ := not_isDirectoryName.1 hname
  rw [FileSystem.follow, hd]
  dsimp only
  rw [if_neg hhere, if_neg hup, hlong, hl]
  rfl

theorem walks_of_follow {entries : List (String × Entry)} (ht : files.Leads trail)
    (h : files.follow trail names = .ok reached) (hd : files.entryAt reached = .directory entries) :
    files.Leads reached ∧ files.Walks trail.location names reached.location := by
  induction names generalizing trail with
  | nil =>
    cases h
    exact ⟨ht, .stay (ht.hasDirectory hd)⟩
  | cons name names ih =>
    rw [follow] at h
    cases hentry : files.entryAt trail with
    | file content =>
      rw [hentry] at h
      cases h
    | directory inner =>
      have hplace := ht.hasDirectory hentry
      rw [hentry] at h
      dsimp only at h
      split_ifs at h with hhere hup hlong
      · obtain ⟨hreached, hwalks⟩ := ih ht h
        exact ⟨hreached, .here hplace hhere hwalks⟩
      · obtain ⟨hreached, hwalks⟩ := ih ht.tail h
        rw [location_tail] at hwalks
        exact ⟨hreached, hup ▸ .up hplace hwalks⟩
      · cases hl : inner.lookup name with
        | none =>
          rw [hl] at h
          cases h
        | some entry =>
          rw [hl] at h
          obtain ⟨hreached, hwalks⟩ := ih (ht.step hentry hl) h
          rw [location_cons] at hwalks
          refine ⟨hreached, .down hplace (not_isDirectoryName.2 ⟨hhere, hup⟩) ?_ hwalks⟩
          simpa using hlong

theorem Walks.follow (h : files.Walks place names found) (ht : files.Leads trail)
    (hplace : trail.location = place) :
    ∃ reached entries, files.follow trail names = .ok reached ∧ files.Leads reached ∧
      reached.location = found ∧ files.entryAt reached = .directory entries := by
  induction h generalizing trail with
  | stay hd =>
    obtain ⟨entries, hentries⟩ := ht.entryAt (hplace ▸ hd)
    exact ⟨trail, entries, rfl, ht, hplace, hentries⟩
  | here hd hname _ ih =>
    obtain ⟨entries, hentries⟩ := ht.entryAt (hplace ▸ hd)
    obtain ⟨reached, inner, hfollow, hreached⟩ := ih ht hplace
    refine ⟨reached, inner, ?_, hreached⟩
    rw [FileSystem.follow, hentries]
    dsimp only
    rw [if_pos hname, hfollow]
  | up hd _ ih =>
    obtain ⟨entries, hentries⟩ := ht.entryAt (hplace ▸ hd)
    obtain ⟨reached, inner, hfollow, hreached⟩ := ih ht.tail (by rw [location_tail, hplace])
    refine ⟨reached, inner, ?_, hreached⟩
    rw [FileSystem.follow, hentries]
    dsimp only
    rw [if_neg (by decide), if_pos rfl, hfollow]
  | down hd hname hlong hwalks ih =>
    obtain ⟨entries, hentries⟩ := ht.entryAt (hplace ▸ hd)
    obtain ⟨inner, hinner⟩ := hwalks.start
    rw [← hplace, find?_inside (hentries ▸ ht.find?)] at hinner
    obtain ⟨reached, found, hfollow, hreached⟩ :=
      ih (ht.step hentries hinner) (by rw [location_cons, hplace])
    refine ⟨reached, found, ?_, hreached⟩
    rw [follow_down hentries hname hlong hinner, hfollow]

theorem Walks.unique (h : files.Walks [] names found) (h' : files.Walks [] names other) :
    found = other := by
  obtain ⟨reached, _, hfollow, -, rfl, -⟩ := h.follow .root rfl
  obtain ⟨reached', _, hfollow', -, rfl, -⟩ := h'.follow .root rfl
  rw [hfollow, Except.ok.injEq] at hfollow'
  rw [hfollow']

section

variable {more : String}

theorem exists_last (path : String) : ∃ front last : String, '/' ∉ last.toList ∧ path = front ++ last ∧
    ∀ other : String, '/' ∉ other.toList → parts (front ++ other) = (parts path).dropLast ++ [other] := by
  have hparts : ∀ (front : List Char) (last : String), '/' ∉ last.toList →
      parts (String.ofList (front ++ ['/']) ++ last) =
        (front.splitOn '/').map String.ofList ++ [last] := by
    intro front last hlast
    rw [parts, String.toList_append, String.toList_ofList, List.append_assoc, List.singleton_append,
      List.splitOn_append_cons_self, List.splitOn_eq_singleton hlast, List.map_append,
      List.map_singleton, String.ofList_toList]
  have hsingle : ∀ last : String, '/' ∉ last.toList → parts last = [last] := by
    intro last hlast
    rw [parts, List.splitOn_eq_singleton hlast, List.map_singleton, String.ofList_toList]
  by_cases hslash : '/' ∈ path.toList
  · obtain ⟨last, front, hpath, hlast⟩ :=
      List.eq_append_cons_of_mem (List.mem_reverse.2 hslash)
    rw [List.reverse_eq_iff, List.reverse_append, List.reverse_cons] at hpath
    have hlast' : '/' ∉ (String.ofList last.reverse).toList := by
      rwa [String.toList_ofList, List.mem_reverse]
    have hsame : path = String.ofList (front.reverse ++ ['/']) ++ String.ofList last.reverse := by
      rw [← String.toList_inj, hpath, String.toList_append, String.toList_ofList, String.toList_ofList]
    refine ⟨_, _, hlast', hsame, fun other hother => ?_⟩
    rw [hsame, hparts _ _ hlast', hparts _ _ hother, List.dropLast_concat]
  · refine ⟨"", path, hslash, (String.empty_append).symm, fun other hother => ?_⟩
    rw [String.empty_append, hsingle _ hother, hsingle _ hslash]
    rfl

theorem trimmed_append {front last : String} (hslash : '/' ∉ last.toList) (hne : last ≠ "") :
    trimmed (front ++ last) = front ++ last := by
  have hne' : last.toList ≠ [] := by simpa using hne
  obtain ⟨c, rest, hlast⟩ := List.exists_cons_of_ne_nil (List.reverse_ne_nil_iff.2 hne')
  have hc : ¬ isSlash c = true := by
    have hmem : c ∈ last.toList := by
      rw [← List.mem_reverse, hlast]
      exact List.mem_cons_self
    rw [isSlash, decide_eq_true_eq]
    rintro rfl
    exact hslash hmem
  rw [trimmed, String.toList_append, List.reverse_append, hlast, List.cons_append,
    List.dropWhile_cons_of_neg hc, ← List.cons_append, ← hlast, ← List.reverse_append,
    List.reverse_reverse, ← String.toList_append, String.ofList_toList]

theorem parts_concat (path : String) :
    ∃ last, parts path = (parts path).dropLast ++ [last] ∧ (last ≠ "" → trimmed path = path) := by
  obtain ⟨front, last, hslash, hpath, hparts⟩ := exists_last path
  refine ⟨last, ?_, fun hne => ?_⟩
  · rw [← hparts last hslash, ← hpath]
  · rw [hpath, trimmed_append hslash hne]

theorem parts_eq (h : trimmed path = path) :
    parts path = (parts path).dropLast ++ [lastName path] := by
  obtain ⟨last, hparts, -⟩ := parts_concat path
  rw [lastName, h, hparts, List.getLast?_concat, List.dropLast_concat, Option.getD_some]

theorem parts_append (h : trimmed path = path) (hslash : '/' ∉ more.toList) :
    parts (path ++ more) = (parts path).dropLast ++ [lastName path ++ more] := by
  obtain ⟨front, last, hlast, hpath, hparts⟩ := exists_last path
  have hname : lastName path = last := by
    have hself := hparts last hlast
    rw [← hpath] at hself
    have hlasts := List.append_cancel_left ((parts_eq h).symm.trans hself)
    rwa [List.singleton_inj] at hlasts
  have hboth : '/' ∉ (last ++ more).toList := by
    rw [String.toList_append, List.mem_append, not_or]
    exact ⟨hlast, hslash⟩
  rw [hname, ← hparts _ hboth, ← String.append_assoc, ← hpath]

end

def origin (files : FileSystem) (path : String) : List String :=
  if path.toList.head? = some '/' then [] else files.workingDirectory

theorem start_eq (hne : path ≠ "") (hshort : path.utf8ByteSize < 4096) :
    files.start path = files.follow [] (files.origin path) := by
  rw [start, if_neg hne, if_neg (by omega), origin]
  split_ifs <;> rfl

theorem locate_eq (hne : path ≠ "") (hshort : path.utf8ByteSize < 4096) :
    files.locate path = files.follow [] (files.origin path ++ parts path) := by
  rw [follow_append, ← start_eq hne hshort]
  rfl

theorem locateParent_eq (hne : path ≠ "") (hshort : path.utf8ByteSize < 4096) :
    files.locateParent path =
      files.follow [] (files.origin path ++ ((parts (trimmed path)).dropLast ++ [""])) := by
  rw [follow_append, ← start_eq hne hshort]
  rfl

/-- The path names an entry of the directory in a place, and by no name that only a directory has. -/
structure PlacesIn (files : FileSystem) (path : String) (above : Location) : Prop where
  nonempty : path ≠ ""
  short : path.utf8ByteSize < 4096
  walks : files.Walks [] (files.origin path ++ (parts path).dropLast) above
  trimmed : trimmed path = path
  name : isDirectoryName (lastName path) = false
  shortName : isTooLong (lastName path) = false

theorem PlacesIn.keeps (h : files.PlacesIn path above) (hk : files.Keeps places later) :
    later.PlacesIn path above := by
  refine { h with walks := ?_ }
  rw [origin, hk.workingDirectory]
  exact h.walks.keeps hk

theorem origin_append (h : path ≠ "") (more : String) :
    files.origin (path ++ more) = files.origin path := by
  have hne : path.toList ≠ [] := by simpa using h
  obtain ⟨c, rest, hpath⟩ := List.exists_cons_of_ne_nil hne
  rw [origin, origin, String.toList_append, hpath]
  rfl

theorem PlacesIn.of_append {more : String} (h : files.PlacesIn path above)
    (h' : files.PlacesIn (path ++ more) other) (hslash : '/' ∉ more.toList) :
    other = above ∧ lastName (path ++ more) = lastName path ++ more := by
  have hparts := parts_append h.trimmed hslash
  have hlasts := (parts_eq h'.trimmed).symm.trans hparts
  rw [hparts, List.dropLast_concat] at hlasts
  have hwalks := h'.walks
  rw [origin_append h.nonempty, hparts, List.dropLast_concat] at hwalks
  exact ⟨hwalks.unique h.walks, List.singleton_inj.1 (List.append_cancel_left hlasts)⟩

/-- What the path leads to is what is in its place. -/
theorem PlacesIn.locate {entry : Entry} (h : files.PlacesIn path above)
    (hentry : files.root.find? (above ++ [lastName path]) = some entry) :
    ∃ trail, files.locate path = .ok ((lastName path, entry) :: trail) ∧
      Trail.location trail = above := by
  obtain ⟨trail, entries, hfollow, ht, rfl, hentries⟩ := h.walks.follow .root rfl
  rw [find?_inside (hentries ▸ ht.find?)] at hentry
  refine ⟨trail, ?_, rfl⟩
  rw [locate_eq h.nonempty h.short, parts_eq h.trimmed, ← List.append_assoc, follow_append, hfollow]
  exact follow_down hentries h.name h.shortName hentry []

theorem start_eq_ok (h : files.start path = .ok trail) : path ≠ "" ∧ path.utf8ByteSize < 4096 := by
  unfold start at h
  split_ifs at h with hne hlong
  · exact ⟨hne, by omega⟩
  · exact ⟨hne, by omega⟩

theorem follow_concat_eq_ok {name : String} (h : files.follow trail (names ++ [name]) = .ok reached) :
    ∃ mid entries, files.follow trail names = .ok mid ∧ files.entryAt mid = .directory entries ∧
      files.follow mid [name] = .ok reached := by
  rw [follow_append] at h
  cases hmid : files.follow trail names with
  | error cause =>
    rw [hmid] at h
    cases h
  | ok mid =>
    rw [hmid] at h
    have hname : files.follow mid [name] = .ok reached := h
    cases hentries : files.entryAt mid with
    | directory entries => exact ⟨mid, entries, rfl, hentries, hname⟩
    | file content =>
      rw [follow, hentries] at hname
      cases hname

theorem locateParent_eq_ok (h : files.locateParent path = .ok trail) :
    path ≠ "" ∧ path.utf8ByteSize < 4096 ∧ files.Leads trail ∧
      (∃ entries, files.entryAt trail = .directory entries) ∧
      files.Walks [] (files.origin path ++ (parts (trimmed path)).dropLast) trail.location := by
  have hstart : path ≠ "" ∧ path.utf8ByteSize < 4096 := by
    cases hs : files.start path with
    | error cause =>
      simp only [locateParent, hs, bind, Except.bind] at h
      cases h
    | ok first => exact start_eq_ok hs
  rw [locateParent_eq hstart.1 hstart.2, ← List.append_assoc] at h
  obtain ⟨mid, entries, hmid, hentries, hlast⟩ := follow_concat_eq_ok h
  rw [follow, hentries] at hlast
  cases hlast
  obtain ⟨ht, hwalks⟩ := walks_of_follow .root hmid hentries
  exact ⟨hstart.1, hstart.2, ht, ⟨entries, hentries⟩, hwalks⟩

end Lexicon.FileSystem
