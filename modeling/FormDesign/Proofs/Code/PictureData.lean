import FormDesign.Image.MemoryFiles
import FormDesign.Proofs.Code.Pictures
import FormDesign.Proofs.Image.Assets

/-!
# Data for pictures

The data of an embedded image is written under the array name of its file, and the pictures of the
methods refer to it by the name that their own path gives. Pictures without data are not shown, and
the cache keeps array names apart; so a picture finds the data of one image. Ruby writes the names
in capitals, and there two of them can become one.

* `Form.PicturesBacked`: every picture of an embedded image has its data, which is there once
* `Form.picturesBacked_iff`: when this is so
-/

namespace FormDesign

/-! ## Names of data -/

namespace Dialect

variable {d : Dialect} {a b : Asset}

/-- The name that the data of an image is defined under. -/
def dataName (d : Dialect) (a : Asset) : String :=
  match d with
  | .ruby => Text.upper a.arrayName
  | .cpp | .python | .perl => a.arrayName

/-- The line that the data of an image begins with. -/
def dataStart (d : Dialect) (a : Asset) : String :=
  match d with
  | .cpp =>
    "const unsigned char " ++ d.dataName a ++ "[" ++ toString a.payload.length ++ "] \x7b"
  | .python => d.dataName a ++ " = bytes(["
  | .ruby => d.dataName a ++ " = ["
  | .perl => "my $" ++ d.dataName a ++ " = pack('C*',"

theorem head_imageData (d : Dialect) (a : Asset) :
    (d.imageData a).head? = some (d.dataStart a) := by
  cases d <;> rfl

/-- What stands before the name of data where it is referred to. -/
def dataMark : Dialect → String
  | .cpp => imageNamespace ++ "::"
  | .perl => "$"
  | .python | .ruby => ""

/-- An image is referred to by the name of its data. -/
theorem arrayRef_eq {image : ImageDescription} (h : a.arrayName = arrayName image.path) :
    d.arrayRef image = d.dataMark ++ d.dataName a := by
  cases d <;> simp [arrayRef, dataMark, dataName, h]

/-- Lists that agree agree before the last occurrence of an item. -/
theorem eq_of_append_cons_eq {α : Type} {x : α} {xs ys xs' ys' : List α}
    (h : xs ++ x :: ys = xs' ++ x :: ys') (hn : x ∉ ys) (hn' : x ∉ ys') : xs = xs' := by
  rcases List.append_eq_append_iff.1 h with ⟨zs, rfl, hz⟩ | ⟨zs, rfl, hz⟩
  · cases zs with
    | nil => exact (List.append_nil xs).symm
    | cons z zs => simp [(List.cons.inj hz).2] at hn
  · cases zs with
    | nil => exact List.append_nil xs'
    | cons z zs => simp [(List.cons.inj hz).2] at hn'

/-- The length after the last bracket of a line holds none itself. -/
theorem bracket_notMem (n : Nat) : '[' ∉ (toString n ++ "] \x7b").toList := by
  rw [String.toList_append, List.mem_append, not_or]
  refine ⟨fun hm => ?_, by decide⟩
  have hm : '[' ∈ Nat.toDigits 10 n := by simpa [Nat.toString_eq_repr, Nat.repr] using hm
  exact absurd (Nat.isDigit_of_mem_toDigits (by decide) (by decide) hm) (by decide)

/-- Data that begins with the same line has the same name. -/
theorem dataName_eq_of_dataStart_eq (h : d.dataStart a = d.dataStart b) :
    d.dataName a = d.dataName b := by
  unfold dataStart at h
  cases d with
  | cpp =>
    -- a name may hold brackets as well, so it is found by the last one
    dsimp only at h
    simp only [String.append_assoc, String.append_right_inj] at h
    have bracket (n : Nat) (name : String) : (name ++ ("[" ++ (toString n ++ "] \x7b"))).toList
        = name.toList ++ '[' :: (toString n ++ "] \x7b").toList := by
      rw [String.toList_append, String.toList_append]
      rfl
    have h := congrArg String.toList h
    rw [bracket, bracket] at h
    exact String.toList_inj.1 (eq_of_append_cons_eq h (bracket_notMem _) (bracket_notMem _))
  | python | ruby | perl =>
    dsimp only at h
    simpa only [String.append_assoc, String.append_right_inj, String.append_left_inj] using h

/-! ## The lines of data -/

/-- Whether a line is the first of some data. No other line in front of the class begins or ends in
this way. -/
def startsData (d : Dialect) : Edit → Bool
  | .line text =>
    match d with
    | .cpp => text.toList.head? == some 'c'
    | .perl => text.toList.head? == some 'm'
    | .python | .ruby => text.toList.getLast? == some '['
  | _ => false

theorem filter_lines {d : Dialect} {first last : String} {rows : List String}
    (hf : d.startsData (.line first) = true)
    (hr : ∀ row ∈ rows, d.startsData (.line row) = false)
    (hl : d.startsData (.line last) = false) :
    (Edit.lines ([first] ++ rows ++ [last])).filter d.startsData = [.line first] := by
  have none : (Edit.lines rows).filter d.startsData = [] := by
    rw [List.filter_eq_nil_iff]
    intro edit he
    obtain ⟨row, hrow, rfl⟩ := List.mem_map.1 he
    simp [hr row hrow]
  unfold Edit.lines at none ⊢
  simp only [List.map_append, List.filter_append, none, List.map_cons, List.map_nil,
    List.filter_cons, hf, hl, if_true, Bool.false_eq_true, if_false, List.filter_nil,
    List.append_nil]

/-- The data of an image begins once. -/
theorem filter_imageData (d : Dialect) (a : Asset) :
    (Edit.lines (d.imageData a)).filter d.startsData = [.line (d.dataStart a)] := by
  unfold imageData
  cases d <;> refine filter_lines (by simp [startsData]) (fun row hrow => ?_) (by decide)
  -- the rows between are indented and end in commas
  all_goals
    obtain ⟨row, -, rfl⟩ := List.mem_map.1 hrow
    simp [startsData, List.getLast?_cons]

theorem startsData_dataStart (d : Dialect) (a : Asset) :
    d.startsData (.line (d.dataStart a)) = true := by
  have hm : .line (d.dataStart a) ∈ (Edit.lines (d.imageData a)).filter d.startsData := by
    rw [filter_imageData]
    exact List.mem_singleton_self _
  exact (List.mem_filter.1 hm).2

theorem filter_imageHelpers (d : Dialect) (needs : ImageNeeds) :
    (Edit.lines (d.imageHelpers needs)).filter d.startsData = [] := by
  have image : (Edit.lines d.imageHelper).filter d.startsData = [] := by cases d <;> decide +kernel
  have drawing : (Edit.lines d.svgHelper).filter d.startsData = [] := by cases d <;> decide +kernel
  have animation : (Edit.lines d.animationHelper).filter d.startsData = [] := by
    cases d <;> decide +kernel
  unfold Edit.lines at image drawing animation ⊢
  simp only [imageHelpers, List.map_append, List.filter_append, apply_ite (List.map Edit.line),
    apply_ite (List.filter d.startsData), image, drawing, animation, List.map_nil, List.filter_nil,
    ite_self, List.append_nil]

/-- In front of the class the data of each image begins once, and nothing else looks like it. -/
theorem filter_images (d : Dialect) (assets : List Asset) (needs : ImageNeeds) :
    (d.images assets needs).filter d.startsData = assets.map fun a => .line (d.dataStart a) := by
  have helpers := d.filter_imageHelpers needs
  have gap : ([.gap] : List Edit).filter d.startsData = [] := rfl
  unfold images
  cases d with
  | cpp =>
    have opening : ([.line ("namespace " ++ imageNamespace), .line "\x7b", .indent] :
        List Edit).filter cpp.startsData = [] := by decide
    have closing : ([.trim, .unindent, .line ("\x7d  // namespace " ++ imageNamespace), .gap] :
        List Edit).filter cpp.startsData = [] := by decide
    dsimp only
    split
    · next hn =>
      simp only [Bool.and_eq_true, List.isEmpty_iff] at hn
      rw [hn.1]
      rfl
    · simp only [List.filter_append, opening, helpers, closing, gap, List.filter_flatMap,
        filter_imageData, List.map_eq_flatMap, List.nil_append, List.append_nil]
  | python | ruby | perl =>
    simp only [List.filter_append, helpers, gap, List.filter_flatMap, filter_imageData,
      List.map_eq_flatMap, List.nil_append, List.append_nil]

/-- The data of an image is written. -/
theorem imageData_infix {assets : List Asset} {a : Asset} (ha : a ∈ assets) (d : Dialect)
    (needs : ImageNeeds) : Edit.lines (d.imageData a) <:+: d.images assets needs := by
  have each (lines : Asset → List Edit) : lines a <:+: assets.flatMap lines := by
    obtain ⟨before, after, rfl⟩ := List.append_of_mem ha
    rw [List.flatMap_append, List.flatMap_cons]
    exact List.infix_append' _ _ _
  unfold images
  cases d with
  | cpp =>
    have nonempty : assets.isEmpty = false := List.isEmpty_eq_false_iff_exists_mem.2 ⟨a, ha⟩
    have part := each fun a => Edit.lines (cpp.imageData a) ++ [.gap]
    dsimp only
    rw [nonempty, Bool.false_and, if_neg Bool.false_ne_true]
    refine ((List.prefix_append _ _).isInfix.trans part).trans ?_
    exact List.infix_append _ _ _
  | python =>
    exact (each fun a => Edit.lines (python.imageData a)).trans (List.infix_append _ _ _)
  | ruby => exact (each fun a => Edit.lines (ruby.imageData a)).trans (List.infix_append _ _ _)
  | perl => exact (each fun a => Edit.lines (perl.imageData a)).trans (List.infix_append _ _ _)

end Dialect

/-! ## Pictures and their data -/

namespace Form

variable {f : Form} {d : Dialect} {source : FileSource} {artDirectory : String} {t : ImageTable}
  {c c' : Cache}

/-- Every picture of an embedded image has its data, and the data of every image is there once,
under a name of its own. -/
structure PicturesBacked (f : Form) (d : Dialect) (c : Collected) : Prop where
  /-- A picture names the data of one image. -/
  named : ∀ pic ∈ f.pictures d c, pic.image.kind.isEmbedded = true →
    (c.images.map Asset.arrayName).count (arrayName pic.image.path) = 1
  written : ∀ a ∈ c.images, Edit.lines (d.imageData a) <:+: imageEdits d c ∧
    (imageEdits d c).count (.line (d.dataStart a)) = 1
  apart : (c.images.map d.dataName).Nodup

theorem filter_imageEdits (d : Dialect) (c : Collected) :
    (imageEdits d c).filter d.startsData = c.images.map fun a => .line (d.dataStart a) := by
  unfold imageEdits
  split
  · next hn =>
    simp only [Bool.and_eq_true, List.isEmpty_iff] at hn
    rw [hn.1]
    rfl
  · exact d.filter_images c.images c.needs

theorem imageData_infix_imageEdits {c : Collected} {a : Asset} (ha : a ∈ c.images) :
    Edit.lines (d.imageData a) <:+: imageEdits d c := by
  have nonempty : c.images.isEmpty = false := List.isEmpty_eq_false_iff_exists_mem.2 ⟨a, ha⟩
  rw [imageEdits, nonempty, Bool.false_and, if_neg Bool.false_ne_true]
  exact Dialect.imageData_infix ha d c.needs

/-- A picture of an embedded image is shown only if the form embeds its file. -/
theorem exists_image_of_mem_pictures {c : Collected} {pic : Picture} (h : pic ∈ f.pictures d c)
    (hk : pic.image.kind.isEmbedded = true) : ∃ a ∈ c.images, a.filename = pic.image.path := by
  have gate {e : Element} {q : Property} {image : ImageDescription}
      (hi : (f.site d c.images).image? e q = some image) (hk : image.kind.isEmbedded = true) :
      ∃ a ∈ c.images, a.filename = image.path := by
    have hembedded := (Option.filter_eq_some_iff.1 hi).2
    rw [hk, Bool.not_true, Bool.false_or, List.contains_iff_mem] at hembedded
    exact List.mem_map.1 hembedded
  cases shown_of_mem_pictures h with
  | icon hi => exact gate hi hk
  | bitmap _ hi => exact gate hi hk
  | animation _ hi => exact gate hi hk

/-- **Every picture of an embedded image has its data, which is there once and under a name of its
own**, except that in Ruby names may become one in capitals. -/
theorem picturesBacked_iff {seen : FileSource → Prop} (reached : Cache.Reached seen c)
    (h : f.images source artDirectory c = (.ok t, c')) (d : Dialect) :
    f.PicturesBacked d (f.collected d t c') ↔
      (d = .ruby → ((t.embedded.assets c').map fun a => Text.upper a.arrayName).Nodup) := by
  have wellFormed : c'.WellFormed := wellFormed_images reached.wellFormed h
  have nodup : ((t.embedded.assets c').map Asset.arrayName).Nodup :=
    Embedded.nodup_assets wellFormed (nodup_images h)
  constructor
  · rintro backed rfl
    exact backed.apart
  · intro capitals
    have apart : ((t.embedded.assets c').map d.dataName).Nodup := by
      cases d with
      | ruby => exact capitals rfl
      | cpp | python | perl => exact nodup
    refine ⟨fun pic hpic hk => ?_, fun a ha => ⟨?_, ?_⟩, apart⟩
    · obtain ⟨a, ha, hfile⟩ := exists_image_of_mem_pictures hpic hk
      have ha : a ∈ t.embedded.assets c' := ha
      have hname := wellFormed.names_eq a ((Embedded.mem_assets wellFormed).1 ha).1
      rw [← hfile, ← hname]
      exact List.count_eq_one_of_mem nodup (List.mem_map_of_mem ha)
    · exact imageData_infix_imageEdits ha
    · have starts : ((t.embedded.assets c').map fun a => Edit.line (d.dataStart a)).Nodup := by
        refine (nodup.of_map _).map_on fun a ha b hb heq => ?_
        have heq := Dialect.dataName_eq_of_dataStart_eq (Edit.line.inj heq)
        exact List.inj_on_of_nodup_map apart ha hb heq
      rw [← List.count_filter (d.startsData_dataStart a), filter_imageEdits]
      exact List.count_eq_one_of_mem starts (List.mem_map_of_mem ha)

end Form

/-! ## A small and a capital letter -/

/-- A picture of an image file. -/
def pictureOf (path : String) : Element :=
  { kind := .staticBitmap, props := [(.bitmap, "Embed;" ++ path)], events := [] }

/-- A dialog with two pictures. The file names differ in the case of a letter beyond ASCII. -/
def letterDesign : Design :=
  .mk { kind := .dialog, props := [(.className, "Dlg")], events := [] }
    [.mk (pictureOf "logo.é") [], .mk (pictureOf "logo.É") []]

/-- The form of the dialog. -/
def letterDialog : Form where
  node :=
    { kind := .dialog, props := [(.className, "Dlg")], events := [], id := 0, parent := none,
      children := [1, 2] }
  children :=
    [.mk
      { node := { pictureOf "logo.é" with id := 1, parent := some 0, children := [] }
        name := "static_bitmap" } [],
    .mk
      { node := { pictureOf "logo.É" with id := 2, parent := some 0, children := [] }
        name := "static_bitmap2" } []]
  above := []

/-- The files of the pictures. -/
def letterFiles : FileSource :=
  ((MemoryFiles.empty.put "logo.é" [1] 0).put "logo.É" [2] 0).source

/-- The images of the dialog. -/
def letterTable : ImageTable :=
  { embedded := [0, 1], includes := [], warnings := [] }

/-- The cache after the dialog was generated. -/
def letterCache : Cache where
  assets :=
    [{ id := 0, filename := "logo.é", arrayName := "logo_é", kind := .embed, payload := [1],
        sourceTime := some 0 },
      { id := 1, filename := "logo.É", arrayName := "logo_É", kind := .embed, payload := [2],
        sourceTime := some 0 }]

/-- Whether the images and the cache are those of the dialog. -/
def isLetterTable : Except Fault ImageTable × Cache → Bool
  | (.ok t, c) =>
    t.embedded = letterTable.embedded ∧ t.includes = letterTable.includes ∧
      t.warnings = letterTable.warnings ∧ c.assets = letterCache.assets
  | (.error _, _) => false

/-- Both files are embedded. -/
theorem images_letterDialog :
    letterDialog.images letterFiles "" .empty = (.ok letterTable, letterCache) := by
  have found : isLetterTable (letterDialog.images letterFiles "" .empty) = true := by
    decide +kernel
  unfold isLetterTable at found
  split at found
  · next t c heq =>
    obtain ⟨embedded, includes, warnings⟩ := t
    obtain ⟨assets⟩ := c
    obtain ⟨rfl, rfl, rfl, rfl⟩ := of_decide_eq_true found
    exact heq
  · cases found

/-- Python has the data of both pictures. -/
theorem letterDialog_picturesBacked :
    letterDialog.images letterFiles "" .empty = (.ok letterTable, letterCache) ∧
      letterDialog.PicturesBacked .python
        (letterDialog.collected .python letterTable letterCache) := by
  have reached : Cache.Reached (· = letterFiles) .empty := .empty
  exact ⟨images_letterDialog, (Form.picturesBacked_iff reached images_letterDialog .python).2 nofun⟩

/-- In Ruby the data of both pictures has the same name. -/
theorem letterDialog_not_picturesBacked :
    Form.ofTree (.ofDesign letterDesign) 0 = .ok letterDialog ∧
      letterDialog.images letterFiles "" .empty = (.ok letterTable, letterCache) ∧
        ¬letterDialog.PicturesBacked .ruby
          (letterDialog.collected .ruby letterTable letterCache) := by
  refine ⟨by with_unfolding_all rfl, images_letterDialog, fun h => ?_⟩
  have sorted := (List.mergeSort_perm (letterTable.embedded.filterMap letterCache.asset?) fun a b =>
    decide (a.arrayName ≤ b.arrayName)).map Dialect.ruby.dataName
  exact absurd (sorted.nodup_iff.1 h.apart) (by decide +kernel)

end FormDesign
