import FormDesign.Project.Disk

/-!
# Reading what was written

A path leads to the same place as long as no directory goes away, and writing a file takes none
away. So a file that was written holds what was written to it (`read_of_writeFile`), and saving it
once more changes nothing (`save_of_save`).
-/

namespace FormDesign.Disk

variable {d d' : Disk}

/-! ## Following a path -/

/-- A component is followed from a directory, to that directory, the one above or what is in it. -/
theorem of_enter {p q : Place} {component : String} (h : d.enter p component = .ok q) :
    d.get? p = some .directory ∧ (q = p ∨ q = p.dropLast ∨ q = p ++ [component]) := by
  unfold enter at h
  cases he : d.get? p with
  | none => simp [he] at h
  | some e =>
    cases e with
    | file => simp [he] at h
    | directory =>
      simp only [he] at h
      refine ⟨rfl, ?_⟩
      split at h
      · exact Or.inl (Except.ok.inj h).symm
      · split at h
        · exact Or.inr (Or.inl (Except.ok.inj h).symm)
        · split at h
          · exact Or.inr (Or.inr (Except.ok.inj h).symm)
          · cases h

/-- What is above a directory is a directory. -/
theorem get?_dropLast {p : Place} (h : d.get? p = some .directory) :
    d.get? p.dropLast = some .directory := by
  rcases List.eq_nil_or_concat p with rfl | ⟨above, name, rfl⟩
  · exact h
  · rw [List.concat_eq_append] at h ⊢
    rw [List.dropLast_concat]
    unfold get? at h ⊢
    rw [Node.get?_append] at h
    cases hc : d.top.at? above with
    | none => simp [hc] at h
    | some c =>
      cases c with
      | file => simp [hc, Node.get?, Node.at?, Node.nodes, Node.named?] at h
      | directory => simp [Node.get?, hc, Node.entry]

/-- A path that leads to no directory leads to a name in one. -/
theorem of_follow {p q : Place} {components : List String} (some_component : components ≠ [])
    (h : d.follow p components = .ok q) (hq : d.get? q ≠ some .directory) :
    ∃ above name, q = above ++ [name] ∧ d.get? above = some .directory := by
  induction components generalizing p with
  | nil => exact absurd rfl some_component
  | cons component rest ih =>
    unfold follow at h
    cases hm : d.enter p component with
    | error fault => simp [hm] at h
    | ok m =>
      rw [hm] at h
      cases rest with
      | cons next rest => exact ih (by simp) h
      | nil =>
        have same : m = q := Except.ok.inj h
        subst same
        obtain ⟨above, rfl | rfl | rfl⟩ := of_enter hm
        · exact absurd above hq
        · exact absurd (get?_dropLast above) hq
        · exact ⟨p, component, rfl, above⟩

/-! ## Disks with the same directories -/

theorem enter_of_keeps
    (keeps : ∀ p, d.get? p = some .directory → d'.get? p = some .directory) {p q : Place}
    {component : String} (h : d.enter p component = .ok q) : d'.enter p component = .ok q := by
  have here := (of_enter h).1
  unfold enter at h ⊢
  rw [keeps p here]
  rwa [here] at h

theorem follow_of_keeps
    (keeps : ∀ p, d.get? p = some .directory → d'.get? p = some .directory) {p q : Place}
    {components : List String} (h : d.follow p components = .ok q) :
    d'.follow p components = .ok q := by
  induction components generalizing p with
  | nil => exact h
  | cons component rest ih =>
    unfold follow at h ⊢
    cases hm : d.enter p component with
    | error fault => simp [hm] at h
    | ok m =>
      rw [hm] at h
      rw [enter_of_keeps keeps hm]
      exact ih h

theorem isPath_of_home (home : d'.home = d.home) (path : String) :
    d'.isPath path = d.isPath path := by
  unfold isPath startBytes
  rw [home]

theorem route_of_home (home : d'.home = d.home) (path : String) :
    d'.route path = d.route path := by
  unfold route start
  rw [home]

/-- A path keeps its place where no directory goes away. -/
theorem locate_of_keeps (home : d'.home = d.home)
    (keeps : ∀ p, d.get? p = some .directory → d'.get? p = some .directory) {path : String}
    {q : Place} (h : d.locate path = .ok q) : d'.locate path = .ok q := by
  unfold locate at h ⊢
  rw [isPath_of_home home, route_of_home home]
  split at h
  · rename_i valid
    rw [if_pos valid]
    exact follow_of_keeps keeps h
  · cases h

/-! ## Files -/

theorem of_locate {path : String} {q : Place} (h : d.locate path = .ok q)
    (hq : d.get? q ≠ some .directory) :
    ∃ above name, q = above ++ [name] ∧ d.get? above = some .directory := by
  unfold locate at h
  split at h
  · have some_component : d.route path ≠ [] := by simp [route, Text.splitOn_ne_nil]
    exact of_follow some_component h hq
  · cases h

/-- What writing a file does: the path leads to a name in a directory, and the file is put there. -/
theorem of_writeFile {path : String} {bytes : List UInt8} (h : d.writeFile path bytes = .ok d') :
    ∃ above name, d.locate path = .ok (above ++ [name]) ∧ d.get? above = some .directory
      ∧ d.get? (above ++ [name]) ≠ some .directory ∧ d' = d.put above name (.file bytes) := by
  unfold writeFile at h
  cases hq : d.locate path with
  | error fault => simp [hq] at h
  | ok q =>
    rw [hq] at h
    have free : d.get? q ≠ some .directory := fun hd => by simp [hd] at h
    obtain ⟨above, name, rfl, dir⟩ := of_locate hq free
    refine ⟨above, name, rfl, dir, free, ?_⟩
    simp only [List.getLast?_concat, List.dropLast_concat] at h
    exact (Except.ok.inj h).symm

/-- A file holds what was written to it. -/
theorem read_of_writeFile {path : String} {bytes : List UInt8}
    (h : d.writeFile path bytes = .ok d') : d'.read path = .ok bytes := by
  obtain ⟨above, name, place, dir, free, rfl⟩ := of_writeFile h
  have after := get?_put (.file bytes) dir free
  have keeps (p : Place) (hp : d.get? p = some .directory) :
      (d.put above name (.file bytes)).get? p = some .directory := by
    have other : p ≠ above ++ [name] := fun same => free (same ▸ hp)
    rw [after p, if_neg other]
    exact hp
  have same_home : (d.put above name (.file bytes)).home = d.home := rfl
  have same_place := locate_of_keeps same_home keeps place
  unfold read
  rw [same_place]
  simp [after]

/-! ## Generated files -/

theorem read_of_save {path : String} {bytes : List UInt8} {code : ResultCode}
    (h : d.save path bytes = (.ok code, d')) : d'.read path = .ok bytes := by
  unfold save at h
  cases hr : d.read path with
  | ok old =>
    simp only [hr] at h
    split at h
    · rename_i same
      cases h
      rw [hr, same]
    · cases hw : d.writeFile path bytes with
      | error fault => simp [hw] at h
      | ok written =>
        simp only [hw] at h
        cases h
        exact read_of_writeFile hw
  | error fault =>
    cases fault with
    | notADirectory | isADirectory | badName => simp [hr] at h
    | notFound =>
      simp only [hr] at h
      split at h
      · split at h
        · rename_i hw
          cases h
          exact read_of_writeFile hw
        · cases h
      · cases h

/-- A file that was saved once is left alone by the next run. -/
theorem save_of_save {path : String} {bytes : List UInt8} {code : ResultCode}
    (h : d.save path bytes = (.ok code, d')) :
    d'.save path bytes = (.ok .alreadyExists, d') := by
  unfold save
  simp [read_of_save h]

end FormDesign.Disk
