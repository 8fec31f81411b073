import FormDesign.Image.MemoryFiles
import FormDesign.Proofs.Code.Pictures

/-!
# Helpers for pictures

Bytes in the generated source become pictures through helper functions, which are written in front
of the class when the images of the form need them. What the images need is found by their
properties, and what a picture calls is chosen where it is spelled. The two agree but for one case:
in C++ a bitmap out of a generated header goes through the helper for bitmaps also when the header
is named like an XPM file, which counts as no need.

* `Picture.Calls`, `Picture.calls_iff`: the helper that a picture calls
* `Form.HelpersDefined`: every helper that is called is defined
* `Form.helpersDefined_iff`: when this is so
-/

namespace FormDesign

/-! ## Helpers -/

/-- The functions that make pictures of bytes. -/
inductive ImageHelper where
  | image
  | drawing
  | animation
  deriving DecidableEq

namespace ImageHelper

/-- What the names of a helper end in. -/
def word : ImageHelper → String
  | .image => "image"
  | .drawing => "bundle_svg"
  | .animation => "animation"

end ImageHelper

namespace Dialect

/-- The name that a helper is defined under. -/
def helperName (d : Dialect) (h : ImageHelper) : String :=
  match d with
  | .cpp => h.word
  | .python => "_wxue_" ++ h.word
  | .ruby | .perl => "wxue_" ++ h.word

/-- A helper as it is referred to. -/
def helperRef (d : Dialect) (h : ImageHelper) : String :=
  match d with
  | .cpp => imageNamespace ++ "::" ++ d.helperName h
  | .python | .ruby | .perl => d.helperName h

/-- What an expression begins with that calls a helper: the call, or a bitmap made of it. -/
def helperCall (d : Dialect) (h : ImageHelper) : String :=
  match d, h with
  | .cpp, .image => "wxBitmapBundle::FromBitmap(wxue_img::image("
  | .cpp, .drawing => "wxue_img::bundle_svg("
  | .cpp, .animation => "wxue_img::animation("
  | .python, .image => "wx.BitmapBundle.FromBitmap(wx.Bitmap(_wxue_image("
  | .python, .drawing => "_wxue_bundle_svg("
  | .python, .animation => "_wxue_animation("
  | .ruby, .image => "Wx::BitmapBundle.new(Wx::Bitmap.new(wxue_image("
  | .perl, .image => "Wx::Bitmap->new(wxue_image("
  | .ruby, .drawing | .perl, .drawing => "wxue_bundle_svg("
  | .ruby, .animation | .perl, .animation => "wxue_animation("

theorem endsWith_helperCall (d : Dialect) (h : ImageHelper) :
    Text.endsWith (d.helperCall h) (d.helperRef h ++ "(") = true := by
  unfold helperCall helperRef helperName ImageHelper.word imageNamespace Text.endsWith
  cases d <;> cases h <;> dsimp only <;> simp only [String.toList_append] <;>
    (repeat rw [String.toList_ofList]) <;> decide

/-- The lines that define a helper. -/
def helperLines (d : Dialect) : ImageHelper → List String
  | .image => d.imageHelper
  | .drawing => d.svgHelper
  | .animation => d.animationHelper

/-- Whether a helper is written for the needs of a form. -/
def offers (d : Dialect) (needs : ImageNeeds) : ImageHelper → Bool
  | .image => d.needsImageHelper needs
  | .drawing => needs.svg
  | .animation => needs.animation

theorem helperLines_infix {d : Dialect} {needs : ImageNeeds} {h : ImageHelper}
    (offered : d.offers needs h = true) : d.helperLines h <:+: d.imageHelpers needs := by
  unfold imageHelpers
  cases h with
  | image =>
    rw [if_pos (show d.needsImageHelper needs = true from offered), List.append_assoc]
    exact List.infix_append [] _ _
  | drawing =>
    rw [if_pos (show needs.svg = true from offered)]
    exact List.infix_append _ _ _
  | animation =>
    rw [if_pos (show needs.animation = true from offered)]
    exact (List.suffix_append _ _).isInfix

/-- The helpers are written together with the data. -/
theorem imageHelpers_infix (d : Dialect) (assets : List Asset) (needs : ImageNeeds) :
    Edit.lines (d.imageHelpers needs) <:+: d.images assets needs := by
  unfold images
  cases d with
  | cpp =>
    dsimp only
    split
    · next hn =>
      simp only [Bool.and_eq_true, List.isEmpty_iff] at hn
      rw [hn.2]
      exact List.infix_refl _
    · simp only [List.append_assoc]
      exact List.infix_append' _ _ _
  | python | ruby | perl =>
    simp only [List.append_assoc]
    exact (List.prefix_append _ _).isInfix

end Dialect

/-- Texts that differ before one of them ends. -/
def Text.Apart (s t : String) : Prop :=
  ¬s.toList <+: t.toList ∧ ¬t.toList <+: s.toList

/-- Literals are compared as lists of characters. -/
theorem Text.apart_ofList {s t : List Char} (h : ¬s <+: t ∧ ¬t <+: s) :
    Text.Apart (.ofList s) (.ofList t) := by
  rwa [Text.Apart, String.toList_ofList, String.toList_ofList]

theorem Text.Apart.not_startsWith {s t : String} (h : Text.Apart s t) (rest : String) :
    Text.startsWith (s ++ rest) t = false := by
  rw [← Bool.not_eq_true, Text.startsWith, List.isPrefixOf_iff_prefix, String.toList_append]
  exact fun both => (List.prefix_or_prefix_of_prefix both (List.prefix_append _ _)).elim h.2 h.1

/-- Calls of different helpers are spelled apart. -/
theorem Dialect.helperCall_apart (d : Dialect) {h h' : ImageHelper} (hne : h ≠ h') :
    Text.Apart (d.helperCall h) (d.helperCall h') := by
  cases d <;> cases h <;> cases h' <;>
    first | exact absurd rfl hne | exact Text.apart_ofList (by decide)

namespace Picture

/-- The picture as an expression. -/
def expr : Picture → Expr
  | .bitmap image => .bitmap image
  | .animation image => .animation image

/-- The expression for the picture calls a helper. -/
def Calls (d : Dialect) (pic : Picture) (h : ImageHelper) : Prop :=
  Text.startsWith (d.expr pic.expr) (d.helperCall h) = true

/-- The helper that the expression for a picture calls, if any. -/
def helper? (d : Dialect) : Picture → Option ImageHelper
  | .bitmap image =>
    match d, image.kind with
    | _, .embed | .cpp, .header => some .image
    | .cpp, .svg => some .drawing
    | _, _ => none
  | .animation image =>
    match d, image.kind with
    | _, .embed | .cpp, .header => some .animation
    | _, _ => none

/-- What the expression for a picture begins with if it calls no helper. -/
def opening (d : Dialect) : Picture → String
  | .bitmap image =>
    match d, image.kind with
    | .cpp, .art => "wxArtProvider::GetBitmapBundle("
    | .cpp, _ => "wxBitmapBundle::FromBitmap(wxBitmap("
    | .python, .svg => "wx.BitmapBundle.FromSVG("
    | .python, .art => "wx.ArtProvider.GetBitmapBundle("
    | .python, _ => "wx.BitmapBundle.FromBitmap(wx.Bitmap(\""
    | .ruby, .svg => "Wx::BitmapBundle.from_svg("
    | .ruby, .art => "Wx::ArtProvider.get_bitmap_bundle("
    | .ruby, _ => "Wx::BitmapBundle.new(Wx::Bitmap.new(\""
    | .perl, .svg => "wxNullBitmap"
    | .perl, .art => "Wx::ArtProvider::GetBitmap("
    | .perl, _ => "Wx::Bitmap->new(\""
  | .animation _ =>
    match d with
    | .cpp => "wxNullAnimation"
    | .python => "wx.adv.NullAnimation"
    | .ruby => "Wx::NULL_ANIMATION"
    | .perl => "Wx::Animation->new()"

/-- Whether it is a bitmap out of a generated header that is named like an XPM file. -/
def isXpmHeader : Picture → Bool
  | .bitmap image => image.kind == .header && image.isXpmFile
  | .animation _ => false

variable {d : Dialect} {pic : Picture} {h : ImageHelper}

/-- The helper is called with the data of the image. -/
theorem expr_of_helper? (hh : pic.helper? d = some h) :
    ∃ after, d.expr pic.expr = d.helperCall h ++ d.arrayRef pic.image ++ after := by
  cases pic with
  | bitmap i =>
    rw [expr, Dialect.expr]
    cases d <;> cases hk : i.kind <;>
      simp only [helper?, hk, reduceCtorEq, Option.some.injEq] at hh <;> subst hh <;>
        simp only [Dialect.bitmap, hk, Picture.image, String.append_assoc]
    all_goals exact ⟨_, rfl⟩
  | animation i =>
    rw [expr, Dialect.expr]
    cases d <;> cases hk : i.kind <;>
      simp only [helper?, hk, reduceCtorEq, Option.some.injEq] at hh <;> subst hh <;>
        simp only [Dialect.animation, hk, Picture.image, String.append_assoc]
    all_goals exact ⟨_, rfl⟩

/-- Without a helper the expression begins in another way. -/
theorem expr_of_helper?_eq_none (hh : pic.helper? d = none) :
    ∃ rest, d.expr pic.expr = pic.opening d ++ rest := by
  cases pic with
  | bitmap i =>
    rw [expr, Dialect.expr]
    cases d <;> cases hk : i.kind <;> simp only [helper?, hk, reduceCtorEq] at hh <;>
      simp only [opening, Dialect.bitmap, hk, Dialect.textLiteral, Dialect.quoted,
        String.append_assoc]
    case perl.svg => exact ⟨"", rfl⟩
    all_goals exact ⟨_, rfl⟩
  | animation i =>
    rw [expr, Dialect.expr]
    cases d <;> cases hk : i.kind <;> simp only [helper?, hk, reduceCtorEq] at hh <;>
      simp only [opening, Dialect.animation, hk]
    all_goals exact ⟨"", rfl⟩

/-- Other openings are apart from every call. -/
theorem opening_apart (d : Dialect) (pic : Picture) (h : ImageHelper) :
    Text.Apart (pic.opening d) (d.helperCall h) := by
  unfold opening
  cases pic <;> cases d <;> dsimp only <;> (try split) <;> cases h <;>
    exact Text.apart_ofList (by decide)

/-- **The helper that a picture calls** can be told from what its expression begins with. -/
theorem calls_iff : pic.Calls d h ↔ pic.helper? d = some h := by
  constructor
  · intro calls
    cases hh : pic.helper? d with
    | some h' =>
      obtain ⟨after, heq⟩ := expr_of_helper? hh
      rw [Option.some.injEq]
      by_contra hne
      rw [Calls, heq, String.append_assoc, (d.helperCall_apart hne).not_startsWith] at calls
      cases calls
    | none =>
      obtain ⟨rest, heq⟩ := expr_of_helper?_eq_none hh
      rw [Calls, heq, (opening_apart d pic h).not_startsWith] at calls
      cases calls
  · intro hh
    obtain ⟨after, heq⟩ := expr_of_helper? hh
    simp [Calls, heq, Text.startsWith, String.toList_append, List.isPrefixOf_iff_prefix]

/-- Only C++ has a helper for drawings. -/
theorem eq_cpp_of_drawing (hh : pic.helper? d = some .drawing) : d = .cpp := by
  cases pic <;> unfold helper? at hh <;> dsimp only at hh <;> split at hh <;> simp_all

/-- The first of the lines that define a helper names it. -/
theorem head_helperLines (hh : pic.helper? d = some h) :
    ∃ line ∈ (d.helperLines h).head?, Text.contains line (d.helperName h) = true := by
  cases h with
  | image | animation => cases d <;> exact ⟨_, rfl, by decide⟩
  | drawing =>
    obtain rfl := eq_cpp_of_drawing hh
    exact ⟨_, rfl, by decide⟩

end Picture

/-! ## Needs -/

namespace Dialect

variable {d : Dialect} {h : ImageHelper}

@[simp] theorem offers_none : d.offers .none h = false := by
  cases h <;> simp [offers, needsImageHelper, ImageNeeds.none]

theorem offers_merge (a b : ImageNeeds) :
    d.offers (a.merge b) h = (d.offers a h || d.offers b h) := by
  cases h with
  | image =>
    simp only [offers, needsImageHelper, ImageNeeds.merge, Bool.and_or_distrib_left]
    ac_rfl
  | drawing | animation => rfl

theorem offers_foldl (parts : List ImageNeeds) (needs : ImageNeeds) :
    d.offers (parts.foldl ImageNeeds.merge needs) h
      = (d.offers needs h || parts.any fun part => d.offers part h) := by
  induction parts generalizing needs with
  | nil => simp
  | cons part parts ih => rw [List.foldl_cons, ih, offers_merge, List.any_cons, Bool.or_assoc]

end Dialect

theorem Dialect.any_of_offers {d : Dialect} {needs : ImageNeeds} {h : ImageHelper}
    (offered : d.offers needs h = true) : needs.any = true := by
  cases h with
  | image =>
    simp only [offers, needsImageHelper, Bool.or_eq_true, Bool.and_eq_true] at offered
    rcases offered with hi | ⟨-, hh⟩
    · simp [ImageNeeds.any, hi]
    · simp [ImageNeeds.any, hh]
  | drawing => simp [ImageNeeds.any, show needs.svg = true from offered]
  | animation => simp [ImageNeeds.any, show needs.animation = true from offered]

/-- What a form needs is needed by its icon or by an image property below it. -/
theorem Form.offers_needs {f : Form} {d : Dialect} {h : ImageHelper} :
    d.offers f.needs h = true ↔ d.offers (iconNeeds (f.element.text .icon)) h = true ∨
      ∃ e ∈ f.innerElements, ∃ prop ∈ e.imageProps,
        d.offers (propNeeds prop.1 prop.2) h = true := by
  simp only [Form.needs, Dialect.offers_foldl, Bool.or_eq_true, List.any_map, List.any_eq_true,
    Function.comp_apply, Element.imageNeeds, Dialect.offers_none, Bool.false_or]

/-- An image that a property names is one of the image properties. -/
theorem Element.mem_imageProps {e : Element} {q : Property} {image : ImageDescription}
    (hq : q.valueType.isImageLike = true) (hi : ImageDescription.parse? (e.text q) = some image) :
    (q, e.text q) ∈ e.imageProps := by
  unfold text prop? at hi ⊢
  cases hf : e.props.find? fun prop => prop.1 == q with
  | none =>
    rw [hf] at hi
    cases hi
  | some prop =>
    obtain ⟨p, value⟩ := prop
    obtain rfl : p = q := by simpa using List.find?_some hf
    exact List.mem_filter.2 ⟨List.mem_of_find?_eq_some hf, hq⟩

namespace Picture

variable {d : Dialect} {pic : Picture} {h : ImageHelper} {image : ImageDescription} {text : String}

/-- What a bitmap calls is a need of its property, unless its header is named like an XPM file. -/
theorem offers_bitmap (hi : ImageDescription.parse? text = some image)
    (hh : (bitmap image).helper? d = some h) (hx : (bitmap image).isXpmHeader = false) :
    d.offers (propNeeds .bitmap text) h = true ∧ d.offers (iconNeeds text) h = true := by
  cases hk : image.kind <;> cases d <;> simp [helper?, hk] at hh <;> subst hh <;>
    simp_all [propNeeds, iconNeeds, isXpmHeader, Dialect.offers, Dialect.needsImageHelper]

theorem offers_animation (hi : ImageDescription.parse? text = some image)
    (hh : (animation image).helper? d = some h) :
    d.offers (propNeeds .animation text) h = true := by
  cases hk : image.kind <;> cases d <;> simp [helper?, hk] at hh <;> subst hh <;>
    simp [propNeeds, hi, hk, Dialect.offers]

/-- A header that is named like an XPM file calls the helper for bitmaps in C++. -/
theorem helper?_of_isXpmHeader (hx : pic.isXpmHeader = true) : pic.helper? .cpp = some .image := by
  cases pic with
  | bitmap image =>
    simp only [isXpmHeader, Bool.and_eq_true, beq_iff_eq] at hx
    simp only [helper?, hx.1]
  | animation image => cases hx

/-- Only C++ calls a helper for a header. -/
theorem eq_cpp_of_isXpmHeader (hx : pic.isXpmHeader = true) (hh : pic.helper? d = some h) :
    d = .cpp ∧ h = .image := by
  cases pic with
  | bitmap image =>
    simp only [isXpmHeader, Bool.and_eq_true, beq_iff_eq] at hx
    cases d <;> simp [helper?, hx.1] at hh
    exact ⟨rfl, hh.symm⟩
  | animation image => cases hx

end Picture

namespace Form

variable {f : Form} {d : Dialect} {t : ImageTable} {c : Cache}

/-- **What the pictures of a form call is needed**, headers that are named like XPM files aside. -/
theorem offers_of_mem_pictures {c : Collected} {pic : Picture} {h : ImageHelper}
    (hpic : pic ∈ f.pictures d c) (hh : pic.helper? d = some h) (hx : pic.isXpmHeader = false) :
    d.offers f.needs h = true := by
  have parsed {e : Element} {q : Property} {image : ImageDescription}
      (hi : (f.site d c.images).image? e q = some image) :
      ImageDescription.parse? (e.text q) = some image := (Option.filter_eq_some_iff.1 hi).1
  rw [offers_needs]
  cases shown_of_mem_pictures hpic with
  | icon hi => exact Or.inl (Picture.offers_bitmap (parsed hi) hh hx).2
  | bitmap he hi =>
    exact Or.inr ⟨_, he, _, Element.mem_imageProps rfl (parsed hi),
      (Picture.offers_bitmap (parsed hi) hh hx).1⟩
  | animation he hi =>
    exact Or.inr ⟨_, he, _, Element.mem_imageProps rfl (parsed hi),
      Picture.offers_animation (parsed hi) hh⟩

/-! ## Definitions -/

/-- Every helper that a picture of the form calls is defined in front of the class. -/
def HelpersDefined (f : Form) (d : Dialect) (c : Collected) : Prop :=
  ∀ pic ∈ f.pictures d c, ∀ h, pic.Calls d h → Edit.lines (d.helperLines h) <:+: imageEdits d c

/-- A helper that is needed is defined. -/
theorem helperLines_infix_imageEdits {c : Collected} {h : ImageHelper}
    (offered : d.offers c.needs h = true) :
    Edit.lines (d.helperLines h) <:+: imageEdits d c := by
  have helpers : Edit.lines (d.helperLines h) <:+: Edit.lines (d.imageHelpers c.needs) :=
    (Dialect.helperLines_infix offered).map Edit.line
  rw [imageEdits, Dialect.any_of_offers offered, Bool.not_true, Bool.and_false,
    if_neg Bool.false_ne_true]
  exact helpers.trans (d.imageHelpers_infix c.images c.needs)

/-- Without a need for it, the helper for bitmaps is not written in C++. -/
theorem notMem_imageEdits {c : Collected} (h : Dialect.cpp.needsImageHelper c.needs = false) :
    .line "wxImage image(const unsigned char* data, size_t size)" ∉ imageEdits .cpp c := by
  have helpers : .line "wxImage image(const unsigned char* data, size_t size)" ∉
      Edit.lines (Dialect.cpp.imageHelpers c.needs) := by
    have drawing : "wxImage image(const unsigned char* data, size_t size)" ∉
        Dialect.cpp.svgHelper := by decide
    have animation : "wxImage image(const unsigned char* data, size_t size)" ∉
        Dialect.cpp.animationHelper := by decide
    unfold Dialect.imageHelpers Edit.lines
    rw [h]
    cases c.needs.svg <;> cases c.needs.animation <;> simp [drawing, animation]
  -- lines of data begin with other letters
  have data (a : Asset) : .line "wxImage image(const unsigned char* data, size_t size)" ∉
      Edit.lines (Dialect.cpp.imageData a) := by
    intro hm
    obtain ⟨line, hline, heq⟩ := List.mem_map.1 hm
    obtain rfl := Edit.line.inj heq
    simp only [Dialect.imageData, List.mem_append, List.mem_cons, List.mem_map, List.not_mem_nil,
      or_false] at hline
    rcases hline with (hline | ⟨row, -, hline⟩) | hline
    case inr => exact absurd hline (by decide)
    all_goals
      have first := congrArg (fun line => line.toList.head?) hline
      simp [String.toList_append] at first
  unfold imageEdits Dialect.images
  split
  · exact List.not_mem_nil
  · dsimp only
    split
    · exact List.not_mem_nil
    · simp only [List.mem_append, List.mem_flatMap, List.mem_cons, List.not_mem_nil, or_false,
        Edit.line.injEq, reduceCtorEq, helpers, data, and_false, exists_false, not_or]
      decide

/-- **Every helper that is called is defined**, except that in C++ the helper for bitmaps is missing
where only headers named like XPM files call it. -/
theorem helpersDefined_iff (f : Form) (d : Dialect) (t : ImageTable) (c : Cache) :
    f.HelpersDefined d (f.collected d t c) ↔
      (d = .cpp → (∃ pic ∈ f.pictures d (f.collected d t c), pic.isXpmHeader = true) →
        d.needsImageHelper f.needs = true) := by
  constructor
  · rintro h rfl ⟨pic, hpic, hx⟩
    have defined := h pic hpic .image (Picture.calls_iff.2 (Picture.helper?_of_isXpmHeader hx))
    have head : .line "wxImage image(const unsigned char* data, size_t size)" ∈
        imageEdits .cpp (f.collected .cpp t c) := defined.subset List.mem_cons_self
    rw [← Bool.not_eq_false]
    exact fun hn => notMem_imageEdits hn head
  · intro h pic hpic helper calls
    have hh := Picture.calls_iff.1 calls
    refine helperLines_infix_imageEdits ?_
    cases hx : pic.isXpmHeader with
    | false => exact offers_of_mem_pictures hpic hh hx
    | true =>
      obtain ⟨rfl, rfl⟩ := Picture.eq_cpp_of_isXpmHeader hx hh
      exact h rfl ⟨pic, hpic, hx⟩

end Form

/-! ## A header that is named like an XPM file -/

/-- A dialog that shows the bitmap of a header. -/
def headerDesign : Design :=
  .mk { kind := .dialog, props := [(.className, "Dlg")], events := [] }
    [.mk { kind := .staticBitmap, props := [(.bitmap, "Header;logo.xpm")], events := [] } []]

/-- The form of the dialog. -/
def headerDialog : Form where
  node :=
    { kind := .dialog, props := [(.className, "Dlg")], events := [], id := 0, parent := none,
      children := [1] }
  children :=
    [.mk
      { node :=
          { kind := .staticBitmap, props := [(.bitmap, "Header;logo.xpm")], events := [], id := 1,
            parent := some 0, children := [] }
        name := "static_bitmap" } []]
  above := []

/-- What the images of the dialog come to: an include. -/
def headerTable : ImageTable :=
  { embedded := [], includes := ["logo.xpm"], warnings := [] }

/-- The bitmap calls a helper that is not there. -/
theorem headerDialog_not_helpersDefined :
    Form.ofTree (.ofDesign headerDesign) 0 = .ok headerDialog ∧
      headerDialog.images MemoryFiles.empty.source "" .empty = (.ok headerTable, .empty) ∧
        ¬headerDialog.HelpersDefined .cpp (headerDialog.collected .cpp headerTable .empty) := by
  refine ⟨by with_unfolding_all rfl, by with_unfolding_all rfl, fun h => ?_⟩
  have shown : Picture.bitmap { kind := .header, path := "logo.xpm", size := none } ∈
      headerDialog.pictures .cpp (headerDialog.collected .cpp headerTable .empty) := by
    decide +kernel
  have defined := h _ shown .image (Picture.calls_iff.2 rfl)
  have none : Form.imageEdits .cpp (headerDialog.collected .cpp headerTable .empty) = [] := by
    with_unfolding_all rfl
  rw [none, List.infix_nil] at defined
  cases defined

end FormDesign
