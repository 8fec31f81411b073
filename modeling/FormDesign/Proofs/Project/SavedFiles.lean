import FormDesign.Project.Disk.Lemmas
import FormDesign.Proofs.Project.Jobs

/-!
# Saved files

Saving a file takes no file and no directory away. What stands where no file was saved is what stood
there before, or else it is a new directory. So a saved file can be read as long as nothing else is
saved where its path leads.

* `Disk.Changes`: what a disk can become
* `Disk.of_save`: what saving one file does
* `Disk.Saves`: files that are saved one after the other
* `Disk.Saves.read_of_mem`, `Disk.answerAll_of_read`: files at different places can all be read
  afterwards, and saving them again changes nothing
-/

namespace FormDesign

/-- A file that is answered with a code, and the files after it. -/
theorem writeAll_of_ok {σ : Type} {write : Writer σ} {target target' : σ} {f : OutputFile}
    {code : ResultCode} (h : write f target = (.ok code, target')) (files : List OutputFile) :
    writeAll write (f :: files) target =
      ((code, []) :: (writeAll write files target').1, (writeAll write files target').2) := by
  simp only [writeAll, h]

/-! ## Bytes -/

theorem byteArray_loop_eq (bytes : ByteArray) (i : Nat) (acc : List UInt8) :
    ByteArray.toList.loop bytes i acc = acc.reverse ++ bytes.data.toList.drop i := by
  fun_induction ByteArray.toList.loop bytes i acc with
  | case1 i acc h ih =>
    have inside : i < bytes.data.toList.length := by simpa using h
    rw [ih, List.drop_eq_getElem_cons inside]
    simp [ByteArray.get!, h]
  | case2 i acc h =>
    have outside : bytes.data.toList.length ≤ i := by simpa using h
    rw [List.drop_eq_nil_of_le outside, List.append_nil]

/-- A text is known by its bytes. -/
theorem toUTF8_toList_inj {s t : String} : s.toUTF8.toList = t.toUTF8.toList ↔ s = t := by
  refine ⟨fun h => ?_, fun h => by rw [h]⟩
  unfold ByteArray.toList at h
  simp only [byteArray_loop_eq, List.reverse_nil, List.nil_append, List.drop_zero] at h
  exact String.toByteArray_inj.1 (ByteArray.ext (Array.ext' h))

/-- The bytes of a generated file. -/
def OutputFile.bytes (f : OutputFile) : List UInt8 :=
  f.content.toUTF8.toList

theorem OutputFile.bytes_inj {f g : OutputFile} : f.bytes = g.bytes ↔ f.content = g.content :=
  toUTF8_toList_inj

namespace Disk

variable {d d₁ d₂ : Disk} {places places' : Place → Prop}

/-! ## Changes -/

/-- What a disk becomes when files are written in some places: directories and files stay what they
are, and in the other places there are at most new directories. -/
structure Changes (places : Place → Prop) (d d' : Disk) : Prop where
  home : d'.home = d.home
  directory : ∀ p, d.get? p = some .directory → d'.get? p = some .directory
  file : ∀ p bytes, d.get? p = some (.file bytes) → ∃ bytes', d'.get? p = some (.file bytes')
  elsewhere : ∀ p, ¬ places p →
    d'.get? p = d.get? p ∨ d.get? p = none ∧ d'.get? p = some .directory

namespace Changes

theorem refl (places : Place → Prop) (d : Disk) : Changes places d d where
  home := rfl
  directory _ h := h
  file _ bytes h := ⟨bytes, h⟩
  elsewhere _ _ := Or.inl rfl

theorem mono (h : Changes places d d₁) (more : ∀ p, places p → places' p) :
    Changes places' d d₁ where
  home := h.home
  directory := h.directory
  file := h.file
  elsewhere p hp := h.elsewhere p fun hmem => hp (more p hmem)

theorem trans (h : Changes places d d₁) (h' : Changes places d₁ d₂) : Changes places d d₂ where
  home := h'.home.trans h.home
  directory p hp := h'.directory p (h.directory p hp)
  file p bytes hp := by
    obtain ⟨bytes', hp'⟩ := h.file p bytes hp
    exact h'.file p bytes' hp'
  elsewhere p hp := by
    rcases h.elsewhere p hp with same | ⟨absent, new⟩
    · rw [← same]
      exact h'.elsewhere p hp
    · exact Or.inr ⟨absent, h'.directory p new⟩

/-- A path keeps its place. -/
theorem locate (h : Changes places d d₁) {path : String} {p : Place} (hp : d.locate path = .ok p) :
    d₁.locate path = .ok p :=
  locate_of_keeps h.home h.directory hp

end Changes

variable {p : Place} {name path : String} {bytes : List UInt8}

/-- Only the place where something is put changes. -/
theorem changes_put (e : Entry) (inside : d.get? p = some .directory)
    (free : d.get? (p ++ [name]) ≠ some .directory)
    (new : d.get? (p ++ [name]) = none ∨ ∃ bytes, e = .file bytes) :
    Changes (· = p ++ [name]) d (d.put p name e) where
  home := rfl
  directory q hq := by
    have other : q ≠ p ++ [name] := fun same => free (same ▸ hq)
    rw [get?_put e inside free, if_neg other]
    exact hq
  file q bytes hq := by
    rw [get?_put e inside free]
    split
    · rename_i same
      rcases new with absent | ⟨bytes', rfl⟩
      · rw [← same, hq] at absent
        cases absent
      · exact ⟨bytes', rfl⟩
    · exact ⟨bytes, hq⟩
  elsewhere q hq := by
    rw [get?_put e inside free, if_neg hq]
    exact Or.inl rfl

/-- Making directories only adds directories. -/
theorem changes_makeDirectories (d : Disk) (p : Place) (components : List String) :
    Changes (fun _ => False) d (d.makeDirectories p components).2 := by
  induction components generalizing d p with
  | nil => exact .refl _ d
  | cons component rest ih =>
    unfold makeDirectories
    cases hq : d.enter p component with
    | error fault => exact .refl _ d
    | ok q =>
      obtain ⟨inside, hcases⟩ := of_enter hq
      cases hget : d.get? q with
      | none =>
        -- the other places that a component can lead to are directories
        have here : q = p ++ [component] := by
          rcases hcases with rfl | rfl | here
          · exact absurd hget (by simp [inside])
          · exact absurd hget (by simp [get?_dropLast inside])
          · exact here
        subst here
        have free : d.get? (p ++ [component]) ≠ some .directory := by simp [hget]
        have first : Changes (fun _ => False) d (d.put p component .directory) :=
          { changes_put .directory inside free (.inl hget) with
            elsewhere := fun q _ => by
              rw [get?_put .directory inside free]
              split
              · rename_i same
                exact Or.inr ⟨same ▸ hget, rfl⟩
              · exact Or.inl rfl }
        simp only [hget]
        exact first.trans (ih _ _)
      | some e =>
        simp only [hget]
        cases e with
        | directory => exact ih d q
        | file => exact .refl _ d

/-! ## One file -/

theorem read_eq_ok_iff :
    d.read path = .ok bytes ↔ ∃ p, d.locate path = .ok p ∧ d.get? p = some (.file bytes) := by
  unfold read
  cases d.locate path with
  | error fault => simp
  | ok p =>
    cases hget : d.get? p with
    | none => simp [hget]
    | some e => cases e <;> simp [hget]

/-- Where a file stays that is not written. -/
theorem Changes.read (h : Changes places d d₁) (hr : d.read path = .ok bytes)
    (apart : ∀ p, d₁.locate path = .ok p → ¬ places p) : d₁.read path = .ok bytes := by
  obtain ⟨p, hp, hget⟩ := read_eq_ok_iff.1 hr
  have hp₁ := h.locate hp
  refine read_eq_ok_iff.2 ⟨p, hp₁, ?_⟩
  rcases h.elsewhere p (apart p hp₁) with same | ⟨absent, -⟩
  · rw [same, hget]
  · rw [hget] at absent
    cases absent

/-- What saving a file does: nothing if it can be read with this content, and otherwise it is
written, after directories were made where it could not be found. -/
theorem of_save {code : ResultCode} (h : d.save path bytes = (.ok code, d₁)) :
    code = .alreadyExists ∧ d.read path = .ok bytes ∧ d₁ = d ∨
      code = .created ∧ d.read path ≠ .ok bytes ∧
        ∃ d₀, Changes (fun _ => False) d d₀ ∧ d₀.writeFile path bytes = .ok d₁ := by
  unfold save at h
  cases hr : d.read path with
  | ok old =>
    simp only [hr] at h
    split at h
    · rename_i same
      cases h
      exact Or.inl ⟨rfl, by rw [same], rfl⟩
    · rename_i differs
      cases hw : d.writeFile path bytes with
      | error fault => simp [hw] at h
      | ok written =>
        simp only [hw] at h
        cases h
        exact Or.inr ⟨rfl, fun same => differs (Except.ok.inj same), d, .refl _ d, hw⟩
  | error fault =>
    cases fault with
    | notADirectory | isADirectory | badName => simp [hr] at h
    | notFound =>
      simp only [hr] at h
      have parents : Changes (fun _ => False) d (d.makeParents path).2 :=
        changes_makeDirectories d _ _
      split at h
      · rename_i d₀ hm
        rw [hm] at parents
        split at h
        · rename_i hw
          cases h
          exact Or.inr ⟨rfl, nofun, d₀, parents, hw⟩
        · cases h
      · cases h

/-- Apart from new directories, only the place where the path leads changes. -/
theorem changes_of_save {code : ResultCode} (h : d.save path bytes = (.ok code, d₁)) :
    Changes (fun p => d₁.locate path = .ok p) d d₁ := by
  rcases of_save h with ⟨-, -, rfl⟩ | ⟨-, -, d₀, hparents, hw⟩
  · exact .refl _ _
  · obtain ⟨above, name, place, inside, free, rfl⟩ := of_writeFile hw
    have last := changes_put (.file bytes) inside free (.inr ⟨bytes, rfl⟩)
    refine (hparents.mono fun _ => False.elim).trans (last.mono ?_)
    rintro _ rfl
    exact last.locate place

/-! ## Some files -/

/-- Generated files are saved one after the other, and none fails. -/
inductive Saves : Disk → List OutputFile → List ResultCode → Disk → Prop
  | nil (d : Disk) : Saves d [] [] d
  | cons {d d₁ d₂ : Disk} {f : OutputFile} {code : ResultCode} {files : List OutputFile}
      {codes : List ResultCode} :
      d.save f.fullPath f.bytes = (.ok code, d₁) → Saves d₁ files codes d₂ →
      Saves d (f :: files) (code :: codes) d₂

theorem of_write {f : OutputFile} {code : ResultCode} (h : Disk.write f d = (.ok code, d₁)) :
    d.save f.fullPath f.bytes = (.ok code, d₁) := by
  have hsave : (d.save f.fullPath f.content.toUTF8.toList) = (.ok code, d₁) := by
    unfold Disk.write at h
    split at h
    · rename_i heq
      cases h
      exact heq
    · cases h
  exact hsave

/-- A run of the writer without failures. -/
theorem saves_writeAll {files : List OutputFile} {d : Disk}
    (succeeds : ∀ w ∈ (writeAll Disk.write files d).1, w.1 ≠ .fail) :
    Saves d files ((writeAll Disk.write files d).1.map Prod.fst)
      (writeAll Disk.write files d).2 := by
  induction files generalizing d with
  | nil => exact .nil d
  | cons f files ih =>
    rcases hw : Disk.write f d with ⟨_ | code, d₁⟩
    · unfold writeAll at succeeds
      simp only [hw, List.mem_cons, forall_eq_or_imp] at succeeds
      exact absurd rfl succeeds.1
    · rw [writeAll_of_ok hw] at succeeds ⊢
      exact .cons (of_write hw) (ih fun w hw => succeeds w (List.mem_cons_of_mem _ hw))

namespace Saves

variable {files before after : List OutputFile} {codes : List ResultCode} {f : OutputFile}

theorem length_eq (h : Saves d files codes d₂) : codes.length = files.length := by
  induction h with
  | nil => rfl
  | cons _ _ ih => rw [List.length_cons, List.length_cons, ih]

theorem changes (h : Saves d files codes d₂) :
    Changes (fun p => ∃ f ∈ files, d₂.locate f.fullPath = .ok p) d d₂ := by
  induction h with
  | nil d => exact .refl _ d
  | cons hsave _ ih =>
    refine ((changes_of_save hsave).mono ?_).trans (ih.mono ?_)
    · intro p hp
      exact ⟨_, List.mem_cons_self, ih.locate hp⟩
    · rintro p ⟨g, hg, hp⟩
      exact ⟨g, List.mem_cons_of_mem _ hg, hp⟩

/-- A run over two lists of files is one over the first and then one over the second. -/
theorem of_append (h : Saves d (before ++ after) codes d₂) :
    ∃ first second d₁, codes = first ++ second ∧ Saves d before first d₁ ∧
      Saves d₁ after second d₂ := by
  induction before generalizing d codes with
  | nil => exact ⟨[], codes, d, rfl, .nil d, h⟩
  | cons f before ih =>
    cases h with
    | cons hsave hrest =>
      obtain ⟨first, second, d₁, rfl, hfirst, hsecond⟩ := ih hrest
      exact ⟨_ :: first, second, d₁, rfl, .cons hsave hfirst, hsecond⟩

/-- What is answered for a file: whether it can be read with its content once the files before it
are saved. -/
theorem code_of_split (h : Saves d (before ++ f :: after) codes d₂) :
    ∃ first second d₁, Saves d before first d₁ ∧ Saves d₁ (f :: after) second d₂ ∧
      (codes[before.length]? = some .alreadyExists ∧ d₁.read f.fullPath = .ok f.bytes ∨
        codes[before.length]? = some .created ∧ d₁.read f.fullPath ≠ .ok f.bytes) := by
  obtain ⟨first, second, d₁, rfl, hfirst, hsecond⟩ := h.of_append
  refine ⟨first, second, d₁, hfirst, hsecond, ?_⟩
  cases hsecond with
  | cons hsave hafter =>
    have here (code : ResultCode) (rest : List ResultCode) :
        (first ++ code :: rest)[before.length]? = some code := by
      rw [← hfirst.length_eq]
      simp
    rw [here]
    rcases of_save hsave with ⟨rfl, hread, -⟩ | ⟨rfl, hread, -⟩
    · exact Or.inl ⟨rfl, hread⟩
    · exact Or.inr ⟨rfl, hread⟩

/-- A file that was saved can be read if its path leads somewhere else than those of the files
after it. -/
theorem read_of_split (h : Saves d (before ++ f :: after) codes d₂)
    (apart : ∀ g ∈ after, ∀ p, d₂.locate f.fullPath = .ok p → d₂.locate g.fullPath ≠ .ok p) :
    d₂.read f.fullPath = .ok f.bytes := by
  obtain ⟨_, _, d₁, -, -, hrest⟩ := h.of_append
  cases hrest with
  | cons hsave hafter =>
    refine hafter.changes.read (read_of_save hsave) ?_
    rintro p hp ⟨g, hg, hg'⟩
    exact apart g hg p hp hg'

/-- Files at different places can all be read. -/
theorem read_of_mem (h : Saves d files codes d₂)
    (apart : (files.map fun f => d₂.locate f.fullPath).Nodup) (hf : f ∈ files) :
    d₂.read f.fullPath = .ok f.bytes := by
  obtain ⟨before, after, rfl⟩ := List.append_of_mem hf
  refine h.read_of_split fun g hg p hp hg' => ?_
  rw [List.map_append, List.map_cons] at apart
  have hnot := (List.nodup_cons.1 (List.nodup_append.1 apart).2.1).1
  exact hnot (List.mem_map.2 ⟨g, hg, hg'.trans hp.symm⟩)

end Saves

/-- Files that can be read with their content are left alone. -/
theorem answerAll_of_read {files : List OutputFile}
    (h : ∀ f ∈ files, d.read f.fullPath = .ok f.bytes) :
    answerAll Disk.write files d = (files.map fun _ => .ok .alreadyExists, d) := by
  induction files with
  | nil => rfl
  | cons f files ih =>
    obtain ⟨hf, hrest⟩ := List.forall_mem_cons.1 h
    have hfirst : Disk.write f d = (.ok .alreadyExists, d) := by
      unfold Disk.write save
      rw [show d.read f.fullPath = .ok f.content.toUTF8.toList from hf]
      simp
    simp only [answerAll, hfirst, ih hrest, List.map_cons]

end Disk

end FormDesign
