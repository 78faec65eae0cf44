import Lexicon.FileSystem.Basic
import Mathlib.Tactic.SplitIfs

namespace Lexicon

namespace Entry

def content? (entry : Entry) (location : Location) : Option ByteArray :=
  match entry.find? location with
  | some (.file content) => some content
  | _ => none

def HasDirectory (entry : Entry) (location : Location) : Prop :=
  ∃ entries, entry.find? location = some (.directory entries)

/-- Every directory stays one, and every file outside of some places has the content it had. -/
structure Keeps (places : List Location) (before after : Entry) : Prop where
  directories : ∀ location, before.HasDirectory location → after.HasDirectory location
  contents : ∀ location, location ∉ places → after.content? location = before.content? location

variable {new entry after later : Entry} {above location other : Location} {name : String}
  {entries : List (String × Entry)} {places more : List Location}

theorem Keeps.refl (entry : Entry) : entry.Keeps [] entry :=
  ⟨fun _ h => h, fun _ _ => rfl⟩

theorem Keeps.trans (h : entry.Keeps places after) (h' : after.Keeps more later) :
    entry.Keeps (places ++ more) later := by
  refine ⟨fun location hd => h'.directories location (h.directories location hd), ?_⟩
  intro location hl
  rw [List.mem_append, not_or] at hl
  exact (h'.contents location hl.2).trans (h.contents location hl.1)

theorem Keeps.mono (h : entry.Keeps places after) (hmore : places ⊆ more) : entry.Keeps more after :=
  ⟨h.directories, fun location hl => h.contents location fun hp => hl (hmore hp)⟩

theorem Keeps.of_same (h : entry.Keeps [location] after)
    (hsame : after.content? location = entry.content? location) : entry.Keeps [] after := by
  refine ⟨h.directories, fun other _ => ?_⟩
  by_cases ho : other = location
  · rw [ho, hsame]
  · exact h.contents other (by rwa [List.mem_singleton])

theorem lookup_filter_ne {next : String} (h : next ≠ name) (entries : List (String × Entry)) :
    (entries.filter (·.1 ≠ name)).lookup next = entries.lookup next := by
  induction entries with
  | nil => rfl
  | cons first entries ih =>
    by_cases hfirst : first.1 = name
    · have hne : (next == first.1) = false := beq_false_of_ne (hfirst ▸ h)
      rw [List.filter_cons_of_neg (by simpa using hfirst), ih, List.lookup_cons, hne]
    · rw [List.filter_cons_of_pos (by simpa using hfirst), List.lookup_cons, List.lookup_cons, ih]

theorem lookup_filter_self (name : String) (entries : List (String × Entry)) :
    (entries.filter (·.1 ≠ name)).lookup name = none := by
  rw [List.lookup_eq_none_iff]
  intro first hfirst
  have hne : first.1 ≠ name := by simpa using (List.mem_filter.1 hfirst).2
  exact bne_iff_ne.2 hne.symm

theorem find?_cons (name : String) (names : Location) (entry : Entry) :
    entry.find? (name :: names) = (entry.inside.lookup name).bind (find? names) := by
  rw [find?]

theorem find?_append (entry : Entry) (names more : Location) :
    entry.find? (names ++ more) = (entry.find? names).bind (find? more) := by
  induction names generalizing entry with
  | nil => rfl
  | cons name names ih =>
    rw [List.cons_append, find?_cons, find?_cons]
    cases entry.inside.lookup name with
    | none => rfl
    | some next => exact ih next

theorem find?_singleton (name : String) (entry : Entry) :
    entry.find? [name] = entry.inside.lookup name := by
  rw [find?_cons]
  cases entry.inside.lookup name <;> rfl

theorem find?_below (h : ∀ below, entries.lookup name = some below → below.inside = [])
    (first : String) (names : Location) :
    (entries.lookup name).bind (find? (first :: names)) = none := by
  cases hbelow : entries.lookup name with
  | none => rfl
  | some below =>
    rw [Option.bind_some, find?_cons, h below hbelow]
    rfl

theorem find?_put (new : Entry) (location : Location) (entry : Entry) :
    (new.put location entry).find? location = some new := by
  induction location generalizing entry with
  | nil => rfl
  | cons name names ih =>
    rw [put, find?_cons, inside, List.lookup_cons_self]
    exact ih _

def changeIn (change : List (String × Entry) → List (String × Entry)) : Location → Entry → Entry
  | [], entry => .directory (change entry.inside)
  | name :: names, entry =>
    let next := changeIn change names ((entry.inside.lookup name).getD (.directory []))
    .directory ((name, next) :: entry.inside.filter (·.1 ≠ name))

theorem put_append (new : Entry) (above : Location) (name : String) (entry : Entry) :
    new.put (above ++ [name]) entry =
      changeIn (fun entries => (name, new) :: entries.filter (·.1 ≠ name)) above entry := by
  induction above generalizing entry with
  | nil => rfl
  | cons first above ih => rw [List.cons_append, put, changeIn, ih]

theorem remove_append (h : entry.find? above = some (.directory entries)) (name : String) :
    remove (above ++ [name]) entry = changeIn (·.filter (·.1 ≠ name)) above entry := by
  induction above generalizing entry with
  | nil =>
    cases h
    rw [List.nil_append, changeIn, inside]
    cases entries.lookup name <;> rfl
  | cons first above ih =>
    obtain ⟨below, hbelow, habove⟩ := Option.bind_eq_some_iff.1 h
    cases entry with
    | file content => cases hbelow
    | directory others =>
      have hlookup : others.lookup first = some below := hbelow
      have hne : above ++ [name] ≠ [] := List.append_ne_nil_of_right_ne_nil _ (List.cons_ne_nil _ _)
      obtain ⟨next, rest, hrest⟩ := List.exists_cons_of_ne_nil hne
      rw [List.cons_append, changeIn, inside, hlookup, Option.getD_some, ← ih habove, hrest]
      simp only [remove, hlookup]

section

variable {change : List (String × Entry) → List (String × Entry)}

theorem find?_changeIn (h : entry.find? above = some (.directory entries)) (rest : Location) :
    (changeIn change above entry).find? (above ++ rest) =
      (Entry.directory (change entries)).find? rest := by
  induction above generalizing entry with
  | nil =>
    cases h
    rfl
  | cons first above ih =>
    obtain ⟨below, hbelow, h⟩ := Option.bind_eq_some_iff.1 h
    rw [changeIn, List.cons_append, find?_cons, inside, List.lookup_cons_self, hbelow]
    exact ih h

/-- Nothing but the directory itself and what is in it changes. -/
theorem changeIn_elsewhere (h : entry.find? above = some (.directory entries))
    (hother : ¬ above <+: other) :
    (changeIn change above entry).content? other = entry.content? other ∧
      (entry.HasDirectory other → (changeIn change above entry).HasDirectory other) := by
  induction above generalizing entry other with
  | nil => exact absurd List.nil_prefix hother
  | cons first above ih =>
    obtain ⟨below, hbelow, h⟩ := Option.bind_eq_some_iff.1 h
    cases other with
    | nil =>
      cases entry with
      | file content => cases hbelow
      | directory entries => exact ⟨rfl, fun _ => ⟨_, rfl⟩⟩
    | cons next others =>
      unfold content? HasDirectory
      rw [changeIn, find?_cons, find?_cons, inside]
      by_cases hnext : next = first
      · rw [hnext, List.lookup_cons_self, hbelow]
        apply ih h
        intro hprefix
        exact hother (hnext ▸ List.cons_prefix_cons.2 ⟨rfl, hprefix⟩)
      · rw [List.lookup_cons, beq_false_of_ne hnext]
        dsimp only
        rw [lookup_filter_ne hnext]
        exact ⟨rfl, id⟩

theorem changeIn_inside (h : entry.find? above = some (.directory entries))
    (hsame : ∀ next, next ≠ name → (change entries).lookup next = entries.lookup next)
    (hbefore : ∀ below, entries.lookup name = some below → below.inside = [])
    (hafter : ∀ below, (change entries).lookup name = some below → below.inside = [])
    {rest : Location} (hne : rest ≠ [name]) :
    (changeIn change above entry).content? (above ++ rest) = entry.content? (above ++ rest) ∧
      (entry.HasDirectory (above ++ rest) →
        (changeIn change above entry).HasDirectory (above ++ rest)) := by
  unfold content? HasDirectory
  rw [find?_changeIn h, find?_append, h, Option.bind_some]
  cases rest with
  | nil => exact ⟨rfl, fun _ => ⟨_, rfl⟩⟩
  | cons next more =>
    rw [find?_cons, find?_cons, inside, inside]
    by_cases hnext : next = name
    · cases more with
      | nil => exact absurd (by rw [hnext]) hne
      | cons first more =>
        rw [hnext, find?_below hbefore, find?_below hafter]
        exact ⟨rfl, id⟩
    · rw [hsame next hnext]
      exact ⟨rfl, id⟩

theorem keeps_changeIn (h : entry.find? above = some (.directory entries))
    (hsame : ∀ next, next ≠ name → (change entries).lookup next = entries.lookup next)
    (hbefore : ∀ inner, entries.lookup name ≠ some (.directory inner))
    (hafter : ∀ below, (change entries).lookup name = some below → below.inside = []) :
    entry.Keeps [above ++ [name]] (changeIn change above entry) := by
  have hinside : ∀ below, entries.lookup name = some below → below.inside = [] := by
    intro below hbelow
    cases below with
    | directory inner => exact absurd hbelow (hbefore inner)
    | file content => rfl
  refine ⟨?_, ?_⟩
  · intro location hd
    by_cases hprefix : above <+: location
    · obtain ⟨rest, rfl⟩ := hprefix
      apply (changeIn_inside h hsame hinside hafter ?_).2 hd
      rintro rfl
      obtain ⟨inner, hinner⟩ := hd
      rw [find?_append, h, Option.bind_some, find?_singleton] at hinner
      exact hbefore inner hinner
    · exact (changeIn_elsewhere h hprefix).2 hd
  · intro location hl
    by_cases hprefix : above <+: location
    · obtain ⟨rest, rfl⟩ := hprefix
      apply (changeIn_inside h hsame hinside hafter ?_).1
      rintro rfl
      exact hl List.mem_cons_self
    · exact (changeIn_elsewhere h hprefix).1

end

/-- What is put where a file is, or nothing, and has nothing in it, covers no other file. -/
theorem keeps_put (h : entry.find? above = some (.directory entries))
    (hvacant : ∀ inner, entries.lookup name ≠ some (.directory inner)) (hnew : new.inside = []) :
    entry.Keeps [above ++ [name]] (new.put (above ++ [name]) entry) := by
  rw [put_append]
  apply keeps_changeIn h _ hvacant
  · intro below hbelow
    rw [List.lookup_cons_self, Option.some.injEq] at hbelow
    rwa [← hbelow]
  · intro next hnext
    rw [List.lookup_cons, beq_false_of_ne hnext]
    exact lookup_filter_ne hnext entries

theorem keeps_remove (h : entry.find? above = some (.directory entries))
    (hvacant : ∀ inner, entries.lookup name ≠ some (.directory inner)) :
    entry.Keeps [above ++ [name]] (remove (above ++ [name]) entry) := by
  rw [remove_append h]
  apply keeps_changeIn h _ hvacant
  · intro below hbelow
    rw [lookup_filter_self] at hbelow
    cases hbelow
  · exact fun next hnext => lookup_filter_ne hnext entries

theorem find?_remove (h : entry.find? above = some (.directory entries)) (name : String) :
    (remove (above ++ [name]) entry).find? (above ++ [name]) = none := by
  rw [remove_append h, find?_changeIn h, find?_singleton]
  exact lookup_filter_self name entries

end Entry

end Lexicon
