import Lexicon.FileSystem.Access
import Lexicon.Proofs.FileSystem.Path

namespace Lexicon.FileSystem

variable {files later : FileSystem} {path : String} {above location : Location}
  {content : ByteArray} {fault : Fault}

theorem refused_of_read (hnull : holdsNull path = false) (h : files.read path = .error fault) :
    ∃ cause, fault = .refused cause path := by
  rw [read, if_neg (by simp [hnull])] at h
  split at h
  · cases h
  · cases h
    exact ⟨_, rfl⟩
  · cases h
    exact ⟨_, rfl⟩

theorem refused_of_write (hnull : holdsNull path = false)
    (h : files.write path content = .error fault) : ∃ cause, fault = .refused cause path := by
  rw [write, if_neg (by simp [hnull])] at h
  split at h
  · cases h
  · cases h
    exact ⟨_, rfl⟩

theorem content?_eq_some : files.content? location = some content ↔
    files.root.find? location = some (.file content) := by
  unfold content? Entry.content?
  split
  · next found h => rw [h, Option.some.injEq, Option.some.injEq, Entry.file.injEq]
  · next hno => exact ⟨nofun, fun h => absurd h (hno content)⟩

theorem content?_eq_none (h : files.root.find? location = none) : files.content? location = none := by
  rw [content?, Entry.content?, h]

theorem not_hasDirectory (h : files.content? location = some content) :
    ¬ files.root.HasDirectory location := by
  rintro ⟨entries, hentries⟩
  rw [content?_eq_some, hentries] at h
  cases h

theorem placeOfFile_eq_ok (h : files.placeOfFile path = .ok location) :
    ∃ above, files.PlacesIn path above ∧ location = above ++ [lastName path] ∧
      ¬ files.root.HasDirectory location := by
  simp only [placeOfFile, bind, Except.bind] at h
  cases hp : files.locateParent path with
  | error cause =>
    rw [hp] at h
    cases h
  | ok trail =>
    rw [hp] at h
    obtain ⟨hne, hshort, ht, ⟨entries, hentries⟩, hwalks⟩ := locateParent_eq_ok hp
    simp only [hentries, Entry.inside] at h
    split_ifs at h with hname hlong
    rw [Bool.or_eq_true, not_or, decide_eq_true_eq, Decidable.not_not] at hname
    split at h
    · cases h
    · next hvacant =>
      rw [hname.1] at hwalks
      refine ⟨trail.location, ⟨hne, hshort, hwalks, hname.1, ?_, ?_⟩, (Except.ok.inj h).symm, ?_⟩
      · simpa using hname.2
      · simpa using hlong
      · rintro ⟨inner, hinner⟩
        rw [← Except.ok.inj h, find?_inside (hentries ▸ ht.find?)] at hinner
        exact hvacant inner hinner

theorem PlacesIn.placeOfFile (h : files.PlacesIn path above)
    (hvacant : ¬ files.root.HasDirectory (above ++ [lastName path])) :
    files.placeOfFile path = .ok (above ++ [lastName path]) := by
  obtain ⟨trail, entries, hfollow, ht, rfl, hentries⟩ := h.walks.follow .root rfl
  have hparent : files.locateParent path = .ok trail := by
    rw [locateParent_eq h.nonempty h.short, h.trimmed, ← List.append_assoc, follow_append, hfollow]
    simp only [Except.bind, follow, hentries, decide_true, Bool.true_or, if_true]
  have hname : ¬ (decide (FileSystem.trimmed path ≠ path) || isDirectoryName (lastName path)) = true := by
    simp [h.trimmed, h.name]
  have hlong : ¬ isTooLong (lastName path) = true := by simp [h.shortName]
  simp only [FileSystem.placeOfFile, hparent, bind, Except.bind, hentries, Entry.inside, if_neg hname,
    if_neg hlong]
  split
  · next inner hinner =>
    rw [← find?_inside (hentries ▸ ht.find?)] at hinner
    exact absurd ⟨inner, hinner⟩ hvacant
  · rfl

theorem keeps_put {entries : List (String × Entry)} {name : String} {new : Entry}
    (h : files.root.find? above = some (.directory entries))
    (hvacant : ∀ inner, entries.lookup name ≠ some (.directory inner)) (hnew : new.inside = []) :
    files.Keeps [above ++ [name]] (files.put (above ++ [name]) new) :=
  ⟨Entry.keeps_put h hvacant hnew, rfl⟩

/-- What is written to a path is in its place, and nothing else changes. -/
theorem write_eq_ok (h : files.write path content = .ok later) :
    ∃ above, files.PlacesIn path above ∧ files.Keeps [above ++ [lastName path]] later ∧
      later.content? (above ++ [lastName path]) = some content := by
  unfold write at h
  split_ifs at h
  cases hp : files.placeOfFile path with
  | error cause =>
    rw [hp] at h
    cases h
  | ok location =>
    rw [hp] at h
    obtain rfl := Except.ok.inj h
    obtain ⟨above, hplaces, rfl, hvacant⟩ := placeOfFile_eq_ok hp
    obtain ⟨entries, habove⟩ := hplaces.walks.hasDirectory
    refine ⟨above, hplaces, keeps_put habove ?_ rfl, content?_eq_some.2 (Entry.find?_put _ _ _)⟩
    intro inner hinner
    rw [← find?_inside habove] at hinner
    exact hvacant ⟨inner, hinner⟩

theorem locate_of_read (h : files.read path = .ok content) :
    ∃ trail, files.locate path = .ok trail ∧ files.entryAt trail = .file content := by
  simp only [FileSystem.read, entry] at h
  split_ifs at h
  cases hl : files.locate path with
  | error cause =>
    rw [hl] at h
    cases h
  | ok trail =>
    rw [hl] at h
    simp only [Except.map] at h
    split at h
    · next found heq =>
      cases h
      exact ⟨trail, rfl, Except.ok.inj heq⟩
    · cases h
    · cases h

theorem start_of_locate {trail : Trail} (h : files.locate path = .ok trail) :
    path ≠ "" ∧ path.utf8ByteSize < 4096 := by
  cases hs : files.start path with
  | error cause =>
    simp only [locate, hs, bind, Except.bind] at h
    cases h
  | ok first => exact start_eq_ok hs

theorem read_eq_ok (h : files.read path = .ok content) :
    ∃ above, files.PlacesIn path above ∧ files.content? (above ++ [lastName path]) = some content := by
  obtain ⟨trail, hlocate, hfile⟩ := locate_of_read h
  obtain ⟨hnonempty, hshort⟩ := start_of_locate hlocate
  obtain ⟨last, hparts, htrimmed⟩ := parts_concat path
  rw [locate_eq hnonempty hshort, hparts, ← List.append_assoc] at hlocate
  obtain ⟨mid, entries, hmid, hentries, hlast⟩ := follow_concat_eq_ok hlocate
  obtain ⟨ht, hwalks⟩ := walks_of_follow .root hmid hentries
  rw [follow, hentries] at hlast
  dsimp only at hlast
  -- by its last name the path leads to the directory itself, to the one above, or into it
  split_ifs at hlast with hhere hup hlong
  · cases hlast
    rw [hentries] at hfile
    cases hfile
  · cases hlast
    obtain ⟨inner, hinner⟩ := ht.entryAt_tail hentries
    rw [hinner] at hfile
    cases hfile
  · cases hl : entries.lookup last with
    | none =>
      rw [hl] at hlast
      cases hlast
    | some found =>
      rw [hl] at hlast
      cases hlast
      obtain rfl : found = .file content := hfile
      have hname := not_isDirectoryName.2 ⟨hhere, hup⟩
      have hne : last ≠ "" := by
        rintro rfl
        exact hhere rfl
      have hself : lastName path = last := by
        have hlasts := List.append_cancel_left ((parts_eq (htrimmed hne)).symm.trans hparts)
        rwa [List.singleton_inj] at hlasts
      refine ⟨Trail.location mid, ⟨hnonempty, hshort, hwalks, htrimmed hne, ?_, ?_⟩, ?_⟩
      · rw [hself, hname]
      · rw [hself]
        simpa using hlong
      · rw [hself, content?_eq_some, find?_inside (hentries ▸ ht.find?), hl]

theorem PlacesIn.read (h : files.PlacesIn path above) (hnull : holdsNull path = false)
    (hcontent : files.content? (above ++ [lastName path]) = some content) :
    files.read path = .ok content := by
  obtain ⟨trail, hlocate, -⟩ := h.locate (content?_eq_some.1 hcontent)
  simp only [FileSystem.read, hnull, Bool.false_eq_true, if_false, entry, hlocate, Except.map,
    entryAt, List.head?_cons, Option.map_some, Option.getD_some]

theorem holdsNull_of_write (h : files.write path content = .ok later) : holdsNull path = false := by
  unfold write at h
  split_ifs at h with hnull
  simpa using hnull

/-- What is written to a path is read from it. -/
theorem read_write (h : files.write path content = .ok later) : later.read path = .ok content := by
  obtain ⟨above, hplaces, hkeeps, hcontent⟩ := write_eq_ok h
  exact (hplaces.keeps hkeeps).read (holdsNull_of_write h) hcontent

theorem vacantPlace_eq_ok (h : files.vacantPlace path = .ok location) :
    ∃ above name entries, location = above ++ [name] ∧
      files.root.find? above = some (.directory entries) ∧ entries.lookup name = none := by
  simp only [vacantPlace, bind, Except.bind] at h
  cases hp : files.locateParent path with
  | error cause =>
    rw [hp] at h
    cases h
  | ok trail =>
    rw [hp] at h
    obtain ⟨-, -, ht, ⟨entries, hentries⟩, -⟩ := locateParent_eq_ok hp
    simp only [hentries, Entry.inside] at h
    split_ifs at h
    split at h
    · cases h
    · next hvacant => exact ⟨_, _, entries, (Except.ok.inj h).symm, hentries ▸ ht.find?, hvacant⟩

theorem keeps_makeDirectory (files : FileSystem) (path : String) :
    files.Keeps [] (files.makeDirectory path).2 := by
  unfold makeDirectory
  split
  · exact .refl files
  · split
    · next location hlocation =>
      obtain ⟨above, name, entries, rfl, habove, hvacant⟩ := vacantPlace_eq_ok hlocation
      have hkeeps : files.Keeps [above ++ [name]] (files.put (above ++ [name]) (.directory [])) := by
        apply keeps_put habove _ rfl
        intro inner hinner
        rw [hvacant] at hinner
        cases hinner
      refine ⟨hkeeps.root.of_same ?_, rfl⟩
      have hput : (files.put (above ++ [name]) (.directory [])).root.find? (above ++ [name]) =
          some (.directory []) := Entry.find?_put _ _ _
      simp only [Entry.content?, hput, find?_inside habove, hvacant]
    · exact .refl files
    · exact .refl files

theorem keeps_makeWithin (files : FileSystem) (n : Nat) (path : String) :
    files.Keeps [] (files.makeWithin n path).2 := by
  induction n generalizing path with
  | zero => exact .refl files
  | succ n ih =>
    have habove := ih (parent (FileSystem.trimmed path))
    have hlast {middle : FileSystem} (h : files.Keeps [] middle) :
        files.Keeps [] (if lastName path = "." then (.ok (), middle)
          else middle.makeDirectory path : Except Fault Unit × FileSystem).2 := by
      split
      · exact h
      · exact h.trans (keeps_makeDirectory middle path)
    rw [makeWithin]
    split
    · exact keeps_makeDirectory files path
    · split
      · next middle hmiddle =>
        rw [hmiddle] at habove
        exact hlast habove
      · next middle hmiddle =>
        rw [hmiddle] at habove
        exact hlast habove
      · exact habove

theorem keeps_makeDirectories (files : FileSystem) (path : String) :
    files.Keeps [] (files.makeDirectories path).2 :=
  keeps_makeWithin files mostDirectories path

/-- What is saved to a path is in its place, and nothing else changes but that directories are made. -/
theorem save_eq_ok (h : files.save path content = (.ok (), later)) :
    ∃ above, later.PlacesIn path above ∧ files.Keeps [above ++ [lastName path]] later ∧
      later.content? (above ++ [lastName path]) = some content := by
  obtain ⟨made, middle, hmiddle, hmade⟩ : ∃ made middle, files.Keeps [] middle ∧
      (if parent path = "" then (.ok (), files) else files.makeDirectories (parent path)) =
        (made, middle) := by
    split_ifs
    · exact ⟨_, _, .refl files, rfl⟩
    · have hkeeps := keeps_makeDirectories files (parent path)
      generalize files.makeDirectories (parent path) = made at hkeeps ⊢
      exact ⟨made.1, made.2, hkeeps, rfl⟩
  simp only [save, hmade] at h
  cases made with
  | error fault => cases h
  | ok made =>
    cases hw : middle.write path content with
    | error fault =>
      rw [hw] at h
      cases h
    | ok written =>
      rw [hw] at h
      cases h
      obtain ⟨above, hplaces, hkeeps, hcontent⟩ := write_eq_ok hw
      exact ⟨above, hplaces.keeps hkeeps, hmiddle.trans hkeeps, hcontent⟩

theorem delete_of_placesIn (h : files.PlacesIn path above)
    (hcontent : files.content? (above ++ [lastName path]) = some content) :
    files.Keeps [above ++ [lastName path]] (files.delete path) ∧
      (files.delete path).root.find? (above ++ [lastName path]) = none := by
  have hfile := content?_eq_some.1 hcontent
  obtain ⟨trail, hlocate, rfl⟩ := h.locate hfile
  obtain ⟨entries, hentries⟩ := h.walks.hasDirectory
  have hdelete : files.delete path = files.remove (Trail.location trail ++ [lastName path]) := by
    simp only [delete, hlocate, location_cons]
  rw [hdelete]
  refine ⟨⟨Entry.keeps_remove hentries ?_, rfl⟩, ?_⟩
  · intro inner hinner
    rw [← find?_inside hentries, hfile] at hinner
    cases hinner
  · exact Entry.find?_remove hentries (lastName path)

end Lexicon.FileSystem
