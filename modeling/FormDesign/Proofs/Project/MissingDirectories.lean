import FormDesign.Proofs.Project.SavedFiles
import Mathlib.Data.List.Induction

/-!
# Files in missing directories

A file that is not there yet is created, however many of the directories above it are missing. The
directory that relative paths start at may be missing too. All that can stand in the way is a file
where a directory is asked for.

* `Disk.NoFileAlong`: no file stands in the way
* `Disk.makeDirectories_of_isName`: what is made along some names
* `Disk.exists_save_eq_created`, `Disk.exists_save_bare`: the file that is created
-/

namespace FormDesign.Disk

variable {d : Disk} {p q : Place} {name path : String} {names : List String} {bytes : List UInt8}

/-- A component that leads into a directory, to what has this name there. -/
structure IsName (component : String) : Prop where
  ne_empty : component ≠ ""
  ne_dot : component ≠ "."
  ne_dots : component ≠ ".."
  short : component.utf8ByteSize ≤ maxNameBytes

/-- No file stands at a place or above it. -/
def NoFileAlong (d : Disk) (q : Place) : Prop :=
  ∀ p, p <+: q → ∀ bytes, d.get? p ≠ some (.file bytes)

theorem enter_of_isName (h : IsName name) (inside : d.get? p = some .directory) :
    d.enter p name = .ok (p ++ [name]) := by
  unfold enter
  simp [inside, h.ne_empty, h.ne_dot, h.ne_dots, h.short]

/-- The top of a disk is there. -/
theorem get?_top (clear : d.NoFileAlong q) : d.get? [] = some .directory := by
  cases htop : d.get? [] with
  | none => simp [get?, Node.get?, Node.at?] at htop
  | some e =>
    cases e with
    | directory => rfl
    | file bytes => exact absurd htop (clear [] List.nil_prefix bytes)

/-- What is above a directory is a directory, at any distance. -/
theorem get?_of_append (h : d.get? (p ++ q) = some .directory) : d.get? p = some .directory := by
  induction q using List.reverseRecOn with
  | nil => simpa using h
  | append_singleton q name ih =>
    have above := get?_dropLast h
    rw [← List.append_assoc, List.dropLast_concat] at above
    exact ih above

/-! ## Following names -/

/-- Names lead on as long as there are directories. -/
theorem follow_of_directory (hnames : ∀ n ∈ names, IsName n) (hname : IsName name)
    (h : d.get? (p ++ names) = some .directory) :
    d.follow p (names ++ [name]) = .ok (p ++ (names ++ [name])) := by
  have inside := get?_of_append h
  induction names generalizing p with
  | nil => simp [follow, enter_of_isName hname inside]
  | cons first rest ih =>
    obtain ⟨hfirst, hrest⟩ := List.forall_mem_cons.1 hnames
    have assoc : p ++ first :: rest = p ++ [first] ++ rest := by simp
    rw [assoc] at h
    have hfollow := ih hrest h (get?_of_append h)
    rw [List.cons_append, follow, enter_of_isName hfirst inside]
    simpa using hfollow

/-- Where no file stands in the way, names lead to their place or to a missing directory. -/
theorem follow_of_noFileAlong (hnames : ∀ n ∈ names, IsName n)
    (clear : d.NoFileAlong (p ++ names)) :
    d.follow p names = .ok (p ++ names) ∨ d.follow p names = .error .notFound := by
  induction names generalizing p with
  | nil => simp [follow]
  | cons first rest ih =>
    obtain ⟨hfirst, hrest⟩ := List.forall_mem_cons.1 hnames
    cases hget : d.get? p with
    | none => exact Or.inr (by simp [follow, enter, hget])
    | some e =>
      cases e with
      | file bytes => exact absurd hget (clear p (List.prefix_append p _) bytes)
      | directory =>
        have assoc : p ++ first :: rest = p ++ [first] ++ rest := by simp
        rw [assoc] at clear ⊢
        rw [follow, enter_of_isName hfirst hget]
        exact ih hrest clear

/-! ## Making directories -/

/-- Along some names the missing directories are made, and nothing else changes. -/
theorem makeDirectories_of_isName (hnames : ∀ n ∈ names, IsName n)
    (inside : d.get? p = some .directory) (clear : d.NoFileAlong (p ++ names)) :
    ∃ d', d.makeDirectories p names = (.ok (), d') ∧ d'.get? (p ++ names) = some .directory ∧
      ∀ q, ¬ q <+: p ++ names → d'.get? q = d.get? q := by
  induction names generalizing d p with
  | nil => exact ⟨d, rfl, by simpa using inside, fun _ _ => rfl⟩
  | cons first rest ih =>
    obtain ⟨hfirst, hrest⟩ := List.forall_mem_cons.1 hnames
    have assoc : p ++ first :: rest = p ++ [first] ++ rest := by simp
    have way : p ++ [first] <+: p ++ [first] ++ rest := List.prefix_append _ _
    rw [assoc] at clear ⊢
    simp only [makeDirectories, enter_of_isName hfirst inside]
    cases hget : d.get? (p ++ [first]) with
    | none =>
      have free : d.get? (p ++ [first]) ≠ some .directory := by simp [hget]
      have after := get?_put .directory inside free
      have made : (d.put p first .directory).get? (p ++ [first]) = some .directory := by
        simp [after]
      have clear' : (d.put p first .directory).NoFileAlong (p ++ [first] ++ rest) := by
        intro q hq bytes
        rw [after]
        split
        · simp
        · exact clear q hq bytes
      obtain ⟨d', hmake, hlast, hframe⟩ := ih hrest made clear'
      refine ⟨d', hmake, hlast, fun q hq => ?_⟩
      have other : q ≠ p ++ [first] := fun same => hq (same ▸ way)
      rw [hframe q hq, after, if_neg other]
    | some e =>
      cases e with
      | file bytes => exact absurd hget (clear _ way bytes)
      | directory => exact ih hrest hget clear

/-! ## Saving a file -/

theorem directoryNames_of_isName (h : ∀ n ∈ d.route path, IsName n) :
    d.directoryNames path = d.route path := by
  have kept : (Text.splitOn '/' path).filter (fun part => part ≠ "" && part ≠ ".") =
      Text.splitOn '/' path := by
    refine List.filter_eq_self.2 fun part hpart => ?_
    have hname := h part (List.mem_append_right _ hpart)
    simp [hname.ne_empty, hname.ne_dot]
  rw [directoryNames, route, Text.FilePath.components, kept]

/-- The components of a path and of what it starts at are never none. -/
theorem exists_route_eq (d : Disk) (path : String) :
    ∃ above name, d.route path = above ++ [name] := by
  rcases List.eq_nil_or_concat (d.route path) with h | ⟨above, name, h⟩
  · simp [route, Text.splitOn_ne_nil] at h
  · exact ⟨above, name, by rw [h, List.concat_eq_append]⟩

theorem read_of_noFileAlong (valid : d.isPath path) (hnames : ∀ n ∈ d.route path, IsName n)
    (absent : d.get? (d.route path) = none) (clear : d.NoFileAlong (d.route path)) :
    d.read path = .error .notFound := by
  unfold read locate
  rw [if_pos valid]
  rcases follow_of_noFileAlong (p := []) hnames clear with h | h <;> simp [h, absent]

/-- **A file that is missing is created.** The directories above it are made where they are missing,
from the top of the disk on, whether or not relative paths start among them. -/
theorem exists_save_eq_created (valid : d.isPath path) (hnames : ∀ n ∈ d.route path, IsName n)
    (absent : d.get? (d.route path) = none) (clear : d.NoFileAlong (d.route path)) :
    ∃ d', d.save path bytes = (.ok .created, d') := by
  have hread := read_of_noFileAlong valid hnames absent clear
  obtain ⟨above, name, hroute⟩ := exists_route_eq d path
  -- the directories that are made are those above the file
  have hparents : d.makeParents path = d.makeDirectories [] above := by
    rw [makeParents, directoryNames_of_isName hnames, hroute, List.dropLast_concat]
  rw [hroute, List.forall_mem_append, List.forall_mem_singleton] at hnames
  have clearAbove : d.NoFileAlong above := fun p hp =>
    clear p (hroute ▸ hp.trans (List.prefix_append _ _))
  obtain ⟨d₀, hmake, made, hframe⟩ :=
    makeDirectories_of_isName (p := []) hnames.1 (get?_top clear) clearAbove
  have same_home : d₀.home = d.home := by
    have hchanges := changes_makeDirectories d [] above
    rw [hmake] at hchanges
    exact hchanges.home
  have hlocate : d₀.locate path = .ok (above ++ [name]) := by
    rw [locate, isPath_of_home same_home, if_pos valid, route_of_home same_home, hroute]
    exact follow_of_directory hnames.1 hnames.2 made
  have free : d₀.get? (above ++ [name]) = none := by
    have below : ¬ above ++ [name] <+: above := fun h => by
      have shorter := h.length_le
      simp only [List.length_append, List.length_singleton] at shorter
      omega
    rw [hframe _ below, ← hroute, absent]
  refine ⟨d₀.put above name (.file bytes), ?_⟩
  simp [save, hread, hparents, hmake, writeFile, hlocate, free]

/-- So is the first file of all, on a disk without the directory that relative paths start at. -/
theorem exists_save_bare {home : Place} (valid : (bare home).isPath path)
    (hnames : ∀ n ∈ (bare home).route path, IsName n) :
    ∃ d', (bare home).save path bytes = (.ok .created, d') := by
  have hget (p : Place) : (bare home).get? p = if p = [] then some .directory else none := by
    cases p <;> rfl
  have some_component : (bare home).route path ≠ [] := by simp [route, Text.splitOn_ne_nil]
  refine exists_save_eq_created valid hnames (by rw [hget, if_neg some_component]) ?_
  intro p _ bytes
  rw [hget]
  split <;> simp

end FormDesign.Disk
