import FormDesign.Text.Blank
import FormDesign.Text.Words
import Mathlib.Data.List.Flatten
import Mathlib.Tactic.ByContra
import Mathlib.Tactic.SplitIfs

/-!
# Blanks behind a name in capitals

In snake case the characters that separate words are dropped. So a name in capitals does not show
what stood behind it exactly if that were spaces, each of which is a cluster by itself.

* `Text.Chars.exists_clusters_append`: how clusters go on
* `Text.Chars.flatten_words`: what the words of a name are made of
* `Text.upperSnakeCase_eq_iff`: which ends do not show
* `Text.capitals_eq_iff`: the same where a name without small letters stays as it is
-/

namespace FormDesign.Text

/-- A text is a name and a number of spaces, none of which joins the name's last cluster. -/
def IsSpaced (name text : String) : Prop :=
  ∃ n, Chars.clusters text.toList = Chars.clusters name.toList ++ List.replicate n [' ']

/-- A character that stands in a name for nothing but itself, also in capitals. -/
structure Solid (c : Char) : Prop where
  upper : upperChar c = [c]
  ne_underscore : c ≠ '_'

theorem solid_equals : Solid '=' := ⟨rfl, by decide⟩

theorem solid_of_isBlank {c : Char} (h : isBlank c = true) : Solid c := by
  have listed : c.toNat ∈ List.range' 0x09 5 ++ [0x20, 0x85, 0xA0, 0x1680] ++ List.range' 0x2000 11
      ++ [0x2028, 0x2029, 0x202F, 0x205F, 0x3000] := by
    simp only [isBlank, Bool.or_eq_true, Bool.and_eq_true, decide_eq_true_eq, beq_iff_eq] at h
    simp only [List.mem_append, List.mem_range'_1, List.mem_cons, List.not_mem_nil]
    omega
  have all : ∀ n ∈ List.range' 0x09 5 ++ [0x20, 0x85, 0xA0, 0x1680] ++ List.range' 0x2000 11
      ++ [0x2028, 0x2029, 0x202F, 0x205F, 0x3000],
      upperChar (Char.ofNat n) = [Char.ofNat n] ∧ Char.ofNat n ≠ '_' := by
    decide +kernel
  have here := all c.toNat listed
  rw [Char.ofNat_toNat] at here
  exact ⟨here.1, here.2⟩

namespace Chars

/-! ## Clusters -/

theorem ne_nil_of_mem_clustersFrom {e : Ending} {c : Char} {s g : List Char}
    (h : g ∈ clustersFrom e c s) : g ≠ [] := by
  induction s generalizing e c g with
  | nil => simp_all [clustersFrom]
  | cons d rest ih =>
    unfold clustersFrom at h
    split at h
    · simp_all
    · next first more heq =>
      split at h
      · rcases List.mem_cons.1 h with rfl | h
        · simp
        · exact ih (heq ▸ List.mem_cons_of_mem _ h)
      · rcases List.mem_cons.1 h with rfl | h
        · simp
        · exact ih (heq ▸ h)

theorem ne_nil_of_mem_clusters {s g : List Char} (h : g ∈ clusters s) : g ≠ [] := by
  cases s with
  | nil => cases h
  | cons c rest => exact ne_nil_of_mem_clustersFrom h

/-- The first cluster begins with the first character. -/
theorem exists_clustersFrom (e : Ending) (c : Char) (s : List Char) :
    ∃ h more, clustersFrom e c s = (c :: h) :: more := by
  cases s with
  | nil => exact ⟨[], [], rfl⟩
  | cons d rest =>
    unfold clustersFrom
    split
    · exact ⟨_, _, rfl⟩
    · split
      · exact ⟨_, _, rfl⟩
      · exact ⟨_, _, rfl⟩

/-- A character that does not draw the next one to itself is the first cluster. -/
theorem exists_clusters_cons {c d : Char} (apart : (Ending.plain.next c).joins c d = false)
    (s : List Char) : ∃ more, clusters (c :: d :: s) = [c] :: more := by
  obtain ⟨h, more, heq⟩ := exists_clustersFrom ((Ending.plain.next c).next d) d s
  refine ⟨(d :: h) :: more, ?_⟩
  rw [clusters, clustersFrom, heq]
  simp [apart]

/-- Clusters stay when text is added, but for the last one, which may grow. -/
theorem exists_clustersFrom_append (e : Ending) (c : Char) (s tail : List Char) :
    ∃ init g grown more, clustersFrom e c s = init ++ [g] ∧
      clustersFrom e c (s ++ tail) = init ++ (g ++ grown) :: more := by
  induction s generalizing e c with
  | nil =>
    obtain ⟨grown, more, heq⟩ := exists_clustersFrom e c tail
    exact ⟨[], [c], grown, more, rfl, heq⟩
  | cons d rest ih =>
    obtain ⟨init, g, grown, more, hs, happend⟩ := ih (e.next d) d
    rw [List.cons_append]
    unfold clustersFrom
    rw [hs, happend]
    by_cases joins : e.joins c d = true
    · cases init with
      | nil => exact ⟨[], c :: g, grown, more, by simp [joins], by simp [joins]⟩
      | cons i init => exact ⟨(c :: i) :: init, g, grown, more, by simp [joins], by simp [joins]⟩
    · cases init with
      | nil => exact ⟨[[c]], g, grown, more, by simp [joins], by simp [joins]⟩
      | cons i init => exact ⟨[c] :: i :: init, g, grown, more, by simp [joins], by simp [joins]⟩

theorem exists_clusters_append {s : List Char} (inhabited : s ≠ []) (tail : List Char) :
    ∃ init g grown more, clusters s = init ++ [g] ∧
      clusters (s ++ tail) = init ++ (g ++ grown) :: more ∧ grown ++ more.flatten = tail := by
  cases s with
  | nil => exact absurd rfl inhabited
  | cons c rest =>
    obtain ⟨init, g, grown, more, hs, happend⟩ :=
      exists_clustersFrom_append (Ending.plain.next c) c rest tail
    have whole := flatten_clusters (c :: rest ++ tail)
    have part := flatten_clusters (c :: rest)
    have hs : clusters (c :: rest) = init ++ [g] := hs
    have happend : clusters (c :: rest ++ tail) = init ++ (g ++ grown) :: more := happend
    refine ⟨init, g, grown, more, hs, happend, ?_⟩
    rw [happend, ← part, hs] at whole
    simpa using whole

/-! ## Words -/

/-- Words are made of the clusters that do not separate them. -/
theorem flatten_wordsFrom (before : Option (List Char)) (word gs : List (List Char)) :
    (wordsFrom before word gs).flatten
      = word.reverse.flatten ++ (gs.filter fun g => !isSeparator g).flatten := by
  induction gs generalizing before word with
  | nil => simp [wordsFrom]
  | cons g rest ih =>
    rw [wordsFrom]
    split_ifs with separates splits
    · simp [ih, separates]
    · simp [ih, separates]
    · simp [ih, separates]

theorem flatten_words (s : List Char) :
    (words s).flatten = ((clusters s).filter fun g => !isSeparator g).flatten := by
  have kept (ws : List (List Char)) : (ws.filter (· ≠ [])).flatten = ws.flatten := by
    induction ws with
    | nil => rfl
    | cons w ws ih => by_cases hw : w = [] <;> simp_all
  rw [words, kept, flatten_wordsFrom]
  rfl

theorem isLowerCluster_space : isLowerCluster [' '] = false := by decide

/-- Spaces behind the clusters begin no more words. -/
theorem filter_wordsFrom_append (before : Option (List Char)) (word gs : List (List Char))
    (n : Nat) : (wordsFrom before word (gs ++ List.replicate n [' '])).filter (· ≠ [])
      = (wordsFrom before word gs).filter (· ≠ []) := by
  induction gs generalizing before word with
  | nil =>
    have none (before : Option (List Char)) (n : Nat) :
        (wordsFrom before [] (List.replicate n [' '])).filter (· ≠ []) = [] := by
      induction n generalizing before with
      | zero => simp [wordsFrom]
      | succ n ih => simpa [List.replicate_succ, wordsFrom, isSeparator] using ih (some [' '])
    cases n with
    | zero => rfl
    | succ n =>
      have rest := none (some [' ']) n
      simp only [List.nil_append, List.replicate_succ, wordsFrom]
      rw [if_pos (by decide), List.filter_cons, List.filter_cons, rest, List.filter_nil]
  | cons g rest ih =>
    -- what comes after a cluster matters only if it is in small letters
    have ahead (b : List Char) : splitsAcronym b g (rest ++ List.replicate n [' ']).head?
        = splitsAcronym b g rest.head? := by
      cases rest with
      | cons next rest => rfl
      | nil => cases n <;> simp [splitsAcronym, List.replicate_succ, isLowerCluster_space]
    simp only [List.cons_append, wordsFrom, ahead]
    split_ifs
    · rw [List.filter_cons, List.filter_cons, ih]
    · rw [List.filter_cons, List.filter_cons, ih]
    · exact ih ..

/-! ## Capitals -/

/-- What shows of a text in capitals, underscores aside. -/
def shown (s : List Char) : List Char :=
  (upper s).filter (· ≠ '_')

theorem shown_append (s t : List Char) : shown (s ++ t) = shown s ++ shown t := by
  simp [shown, upper]

theorem mem_shown {s : List Char} {c : Char} (hc : c ∈ s) (solid : Solid c) : c ∈ shown s := by
  refine List.mem_filter.2 ⟨List.mem_flatMap.2 ⟨c, hc, ?_⟩, decide_eq_true solid.ne_underscore⟩
  rw [solid.upper]
  exact List.mem_singleton_self c

/-- What shows of clusters, of which some separate words. -/
def shownOf (gs : List (List Char)) : List Char :=
  shown (gs.filter fun g => !isSeparator g).flatten

theorem shownOf_nil : shownOf [] = [] := rfl

theorem shownOf_append (gs hs : List (List Char)) :
    shownOf (gs ++ hs) = shownOf gs ++ shownOf hs := by
  simp [shownOf, shown_append]

theorem shownOf_cons (g : List Char) (gs : List (List Char)) :
    shownOf (g :: gs) = (if isSeparator g then [] else shown g) ++ shownOf gs := by
  cases h : isSeparator g <;> simp [shownOf, h, shown_append]

/-- A character of a cluster that separates nothing shows. -/
theorem mem_shownOf {gs : List (List Char)} {g : List Char} (hg : g ∈ gs)
    (solo : isSeparator g = false) {c : Char} (hc : c ∈ g) (solid : Solid c) : c ∈ shownOf gs := by
  refine mem_shown (List.mem_flatten.2 ⟨g, List.mem_filter.2 ⟨hg, ?_⟩, hc⟩) solid
  rw [solo]
  rfl

/-- Of the clusters that separate words only the space is blank, and no longer one does. -/
theorem eq_space_of_isSeparator {g : List Char} (h : isSeparator g = true) :
    g = [' '] ∨ g = ['-'] ∨ g = ['_'] := by
  simp only [isSeparator, Bool.or_eq_true, beq_iff_eq] at h
  exact h.elim .inr .inl

theorem isSeparator_of_equals_mem {g : List Char} (h : '=' ∈ g) : isSeparator g = false := by
  rw [← Bool.not_eq_true]
  intro separates
  rcases eq_space_of_isSeparator separates with rfl | rfl | rfl <;> cases List.mem_singleton.1 h

theorem filter_intercalate {p : Char → Bool} {sep : List Char} (hsep : sep.filter p = [])
    (xs : List (List Char)) : (sep.intercalate xs).filter p = xs.flatten.filter p := by
  induction xs with
  | nil => rfl
  | cons x xs ih =>
    cases xs with
    | nil => simp [List.intercalate]
    | cons y ys =>
      rw [List.intercalate_cons_cons, List.filter_append, List.filter_append, hsep, ih]
      simp

end Chars

open Chars (clusters shownOf isSeparator)

/-- What shows of a name in capitals is what is in its words. -/
theorem filter_upperSnakeCase (s : String) :
    (upperSnakeCase s).toList.filter (· ≠ '_') = shownOf (clusters s.toList) := by
  have capitals (ws : List (List Char)) :
      (ws.map Chars.upper).flatten = Chars.upper ws.flatten := by
    induction ws with
    | nil => rfl
    | cons w ws ih => simp [Chars.upper, ih]
  have texts : List.map String.toList ((Chars.words s.toList).map fun w =>
      String.ofList (Chars.upper w)) = (Chars.words s.toList).map Chars.upper := by
    simp [Function.comp_def]
  rw [upperSnakeCase, String.toList_intercalate, Chars.filter_intercalate rfl, texts, capitals,
    Chars.flatten_words]
  rfl

/-- What stands behind a name: blanks, or blanks and an equals sign and more. -/
structure IsEnd (tail : List Char) : Prop where
  first : ∀ c ∈ tail.head?, Solid c
  all : (∀ c ∈ tail, isBlank c = true) ∨ '=' ∈ tail

/-- Clusters that do not show are spaces, if they make up an end. -/
theorem eq_replicate_of_shownOf {gs : List (List Char)} (inhabited : ∀ g ∈ gs, g ≠ [])
    (hend : (∀ c ∈ gs.flatten, isBlank c = true) ∨ '=' ∈ gs.flatten) (none : shownOf gs = []) :
    gs = List.replicate gs.length [' '] := by
  have hidden {g : List Char} (hg : g ∈ gs) {c : Char} (hc : c ∈ g) (solid : Solid c) :
      isSeparator g = true := by
    by_contra solo
    have shows := Chars.mem_shownOf hg (Bool.eq_false_iff.2 solo) hc solid
    rw [none] at shows
    cases shows
  refine List.eq_replicate_iff.2 ⟨rfl, fun g hg => ?_⟩
  rcases hend with blanks | equals
  · obtain ⟨c, hc⟩ := List.exists_mem_of_ne_nil g (inhabited g hg)
    have blank := blanks c (List.mem_flatten.2 ⟨g, hg, hc⟩)
    rcases Chars.eq_space_of_isSeparator (hidden hg hc (solid_of_isBlank blank)) with
      rfl | rfl | rfl
    · rfl
    all_goals
      obtain rfl := List.mem_singleton.1 hc
      cases blank
  · obtain ⟨g', hg', hc⟩ := List.mem_flatten.1 equals
    have separates := hidden hg' hc solid_equals
    rw [Chars.isSeparator_of_equals_mem hc] at separates
    cases separates

/-- A longer cluster separates nothing. -/
theorem isSeparator_append {g grown : List Char} (hg : g ≠ []) (hgrown : grown ≠ []) :
    isSeparator (g ++ grown) = false := by
  rw [← Bool.not_eq_true]
  intro separates
  have long : 2 ≤ (g ++ grown).length := by
    have front := List.length_pos_iff.2 hg
    have back := List.length_pos_iff.2 hgrown
    rw [List.length_append]
    omega
  rcases Chars.eq_space_of_isSeparator separates with h | h | h <;> simp [h] at long

/-- The last cluster of a name does not grow by an end that does not show. -/
theorem eq_nil_of_shownOf_append {g grown : List Char} {more : List (List Char)} (hg : g ≠ [])
    (first : ∀ c ∈ grown.head?, Solid c)
    (same : shownOf ((g ++ grown) :: more) = shownOf [g]) : grown = [] := by
  by_contra grows
  obtain ⟨c, rest, rfl⟩ := List.exists_cons_of_ne_nil grows
  have positive := List.length_pos_of_mem
    (Chars.mem_shown (List.mem_cons_self (l := rest)) (first c rfl))
  rw [Chars.shownOf_cons, Chars.shownOf_cons, isSeparator_append hg grows,
    if_neg Bool.false_ne_true, Chars.shownOf_nil, List.append_nil, Chars.shown_append] at same
  have lengths := congrArg List.length same
  simp only [List.length_append] at lengths
  split at lengths
  · rw [List.length_nil] at lengths
    omega
  · omega

section

variable {name text : String} {tail : List Char}

/-- Of an end that does not show in capitals every cluster is a space. -/
theorem isSpaced_of_upperSnakeCase_eq (inhabited : name ≠ "")
    (htext : text.toList = name.toList ++ tail) (hend : IsEnd tail)
    (same : upperSnakeCase text = upperSnakeCase name) : IsSpaced name text := by
  have letters : name.toList ≠ [] := by simpa using inhabited
  obtain ⟨init, g, grown, more, hname, happend, htail⟩ :=
    Chars.exists_clusters_append letters tail
  rw [← htext] at happend
  have hg : g ≠ [] := Chars.ne_nil_of_mem_clusters (hname ▸ List.mem_append_right init (by simp))
  have shows : shownOf (clusters text.toList) = shownOf (clusters name.toList) := by
    rw [← filter_upperSnakeCase, ← filter_upperSnakeCase, same]
  rw [hname, happend, Chars.shownOf_append, Chars.shownOf_append,
    List.append_cancel_left_eq] at shows
  have still : grown = [] := by
    refine eq_nil_of_shownOf_append hg (fun c hc => hend.first c ?_) shows
    rw [← htail, List.head?_append, Option.mem_def.1 hc]
    rfl
  subst still
  rw [List.append_nil] at shows happend
  have none : shownOf more = [] := by
    rw [Chars.shownOf_cons, Chars.shownOf_cons, Chars.shownOf_nil, List.append_nil] at shows
    exact List.append_right_eq_self.1 shows
  have all : ∀ h ∈ more, h ≠ [] := fun h hh => by
    refine Chars.ne_nil_of_mem_clusters (s := text.toList) ?_
    rw [happend]
    exact List.mem_append_right init (List.mem_cons_of_mem g hh)
  have htail : more.flatten = tail := htail
  refine ⟨more.length, ?_⟩
  rw [happend, hname, ← eq_replicate_of_shownOf all (htail ▸ hend.all) none, List.append_assoc]
  rfl

/-- **An end does not show in capitals if and only if it is spaces.** -/
theorem upperSnakeCase_eq_iff (inhabited : name ≠ "") (htext : text.toList = name.toList ++ tail)
    (hend : IsEnd tail) : upperSnakeCase text = upperSnakeCase name ↔ IsSpaced name text := by
  refine ⟨isSpaced_of_upperSnakeCase_eq inhabited htext hend, ?_⟩
  rintro ⟨n, hn⟩
  rw [upperSnakeCase, upperSnakeCase, Chars.words, Chars.words, hn, Chars.filter_wordsFrom_append]

/-- A name in capitals, if there are small letters in it. -/
def capitals (s : String) : String :=
  if s.toList.any Char.isLower then upperSnakeCase s else s

theorem equals_mem_upperSnakeCase {s : String} (h : '=' ∈ s.toList) :
    '=' ∈ (upperSnakeCase s).toList := by
  rw [← Chars.flatten_clusters s.toList] at h
  obtain ⟨g, hg, hc⟩ := List.mem_flatten.1 h
  have shows := Chars.mem_shownOf hg (Chars.isSeparator_of_equals_mem hc) hc solid_equals
  rw [← filter_upperSnakeCase] at shows
  exact (List.mem_filter.1 shows).1

theorem not_isLower_of_isBlank {c : Char} (h : isBlank c = true) : c.isLower = false := by
  rw [← Bool.not_eq_true]
  intro lower
  delta Char.isLower at lower
  simp only [UInt32.le_iff_toNat_le, Bool.and_eq_true, decide_eq_true_eq] at lower
  simp only [isBlank, Bool.or_eq_true, Bool.and_eq_true, decide_eq_true_eq, beq_iff_eq] at h
  have low : 97 ≤ c.toNat := lower.1
  have high : c.toNat ≤ 122 := lower.2
  omega

/-- An end goes unnoticed if there is none, or if it is spaces behind a name with small letters. -/
theorem capitals_eq_iff (inhabited : name ≠ "") (htext : text.toList = name.toList ++ tail)
    (hend : IsEnd tail) (plain : '=' ∉ name.toList) :
    capitals text = capitals name ↔
      text = name ∨ name.toList.any Char.isLower = true ∧ IsSpaced name text := by
  unfold capitals
  by_cases small : name.toList.any Char.isLower = true
  · have smallText : text.toList.any Char.isLower = true := by simp [htext, small]
    rw [if_pos small, if_pos smallText, upperSnakeCase_eq_iff inhabited htext hend,
      and_iff_right small]
    refine (or_iff_right_of_imp ?_).symm
    rintro rfl
    exact ⟨0, by simp⟩
  · rw [if_neg small]
    simp only [small, false_and, or_false, Bool.false_eq_true]
    split
    · next smallText =>
      -- blanks are no small letters, so the end has an equals sign
      have equals : '=' ∈ tail := by
        refine hend.all.resolve_left fun blanks => ?_
        rw [htext, List.any_append, Bool.or_eq_true] at smallText
        obtain ⟨c, hc, lower⟩ := List.any_eq_true.1 (smallText.resolve_left small)
        exact Bool.noConfusion (lower.symm.trans (not_isLower_of_isBlank (blanks c hc)))
      refine iff_of_false (fun same => plain ?_) ?_
      · rw [← same]
        exact equals_mem_upperSnakeCase (htext ▸ List.mem_append_right _ equals)
      · rintro rfl
        exact small smallText
    · exact Iff.rfl

end

end FormDesign.Text
