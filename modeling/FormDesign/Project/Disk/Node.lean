/-!
# Disk nodes

The tree of files and directories that a disk holds. A place is a node's address: the names that
lead to it from the top. What can be seen of a tree is the entry at each place, and a change in a
directory is seen at the places that it is about and nowhere else (`get?_update_of_not_below`).
-/

namespace FormDesign.Disk

/-- The names that lead from the top of a disk to a file or directory. The top itself has none. -/
abbrev Place : Type := List String

/-- What stands at a place. -/
inductive Entry where
  | file (bytes : List UInt8)
  | directory
  deriving DecidableEq

/-- A file or a directory under its name, a directory with all that is in it. -/
inductive Node where
  | file (name : String) (bytes : List UInt8)
  | directory (name : String) (nodes : List Node)

namespace Node

def name : Node → String
  | file name _ | directory name _ => name

def entry : Node → Entry
  | file _ bytes => .file bytes
  | directory .. => .directory

/-- What is in a directory. A file holds nothing. -/
def nodes : Node → List Node
  | file .. => []
  | directory _ ns => ns

/-- A new node. A directory starts out empty. -/
def ofEntry (name : String) : Entry → Node
  | .file bytes => file name bytes
  | .directory => directory name []

/-! ## The nodes of a directory -/

/-- The first node of a name. -/
def named? (name : String) (ns : List Node) : Option Node :=
  ns.find? fun n => n.name == name

/-- The nodes with a new one: in the place of that of the same name, or at the end. -/
def insert (new : Node) : List Node → List Node
  | [] => [new]
  | n :: rest => if n.name = new.name then new :: rest else n :: insert new rest

/-- The nodes of other names. -/
def erase (name : String) (ns : List Node) : List Node :=
  ns.filter fun n => n.name ≠ name

/-! ## Places -/

/-- The node at a place below another one. -/
def at? : Place → Node → Option Node
  | [], n => some n
  | name :: rest, n =>
    match named? name n.nodes with
    | some c => at? rest c
    | none => none

/-- What stands at a place below a node. -/
def get? (n : Node) (p : Place) : Option Entry :=
  (at? p n).map entry

/-- Changes what is in the directory at a place. -/
def update (f : List Node → List Node) : Place → Node → Node
  | _, file name bytes => file name bytes
  | [], directory name ns => directory name (f ns)
  | next :: rest, directory name ns =>
    directory name (ns.map fun n => if n.name = next then update f rest n else n)

mutual

/-- What is below a node, with the places that lead there from it. A directory comes before what is
in it. -/
def inside : Node → List (Place × Entry)
  | file .. => []
  | directory _ ns => insideAll ns

/-- Several nodes of a directory and what is below them. -/
def insideAll : List Node → List (Place × Entry)
  | [] => []
  | n :: rest =>
    ([n.name], n.entry) :: ((inside n).map fun (p, e) => (n.name :: p, e)) ++ insideAll rest

end

/-! ## What a change does to the entries -/

@[simp] theorem name_ofEntry (name : String) (e : Entry) : (ofEntry name e).name = name := by
  cases e <;> rfl

@[simp] theorem entry_ofEntry (name : String) (e : Entry) : (ofEntry name e).entry = e := by
  cases e <;> rfl

theorem nodes_ofEntry (name : String) (e : Entry) : (ofEntry name e).nodes = [] := by
  cases e <;> rfl

theorem named?_insert (new : Node) (name : String) (ns : List Node) :
    named? name (insert new ns) = if name = new.name then some new else named? name ns := by
  unfold named?
  induction ns with
  | nil =>
    by_cases h : name = new.name
    · simp [insert, h]
    · simp [insert, h, Ne.symm h]
  | cons n rest ih =>
    by_cases h : name = new.name
    · rw [if_pos h] at ih ⊢
      unfold insert
      by_cases hn : n.name = new.name
      · simp [hn, h]
      · simpa [hn, h] using h ▸ ih
    · rw [if_neg h] at ih ⊢
      unfold insert
      by_cases hn : n.name = new.name
      · simp [hn, Ne.symm h]
      · rw [if_neg hn, List.find?_cons, List.find?_cons, ih]

theorem named?_erase (gone name : String) (ns : List Node) :
    named? name (erase gone ns) = if name = gone then none else named? name ns := by
  unfold named? erase
  rw [List.find?_filter]
  by_cases h : name = gone
  · rw [if_pos h]
    exact List.find?_eq_none.mpr (by simp [h])
  · rw [if_neg h]
    refine congrFun (congrArg List.find? (funext fun n => ?_)) ns
    by_cases hn : n.name = name <;> simp [hn, h]

/-- A change that keeps names keeps what is found by them. -/
theorem named?_map {g : Node → Node} (hg : ∀ n, (g n).name = n.name) (name : String)
    (ns : List Node) : named? name (ns.map g) = (named? name ns).map g := by
  unfold named?
  rw [List.find?_map]
  exact congrArg (Option.map g) (congrFun (congrArg List.find? (funext fun n => by simp [hg])) ns)

theorem name_of_named? {name : String} {ns : List Node} {n : Node}
    (h : named? name ns = some n) : n.name = name := by
  simpa using List.find?_some h

/-! ### Seen from the places -/

theorem at?_append (p q : Place) (n : Node) : at? (p ++ q) n = (at? p n).bind (at? q) := by
  induction p generalizing n with
  | nil => rfl
  | cons name rest ih =>
    simp only [List.cons_append, at?]
    cases named? name n.nodes with
    | none => rfl
    | some c => exact ih c

theorem name_update (f : List Node → List Node) (p : Place) (n : Node) :
    (update f p n).name = n.name := by
  cases n <;> cases p <;> simp [update, name]

/-- The node that a change leads through is found under the same name. -/
theorem named?_update (f : List Node → List Node) (next : String) (rest : Place) (name : String)
    (n : Node) : named? name (update f (next :: rest) n).nodes
      = (named? name n.nodes).map fun c => if name = next then update f rest c else c := by
  cases n with
  | file => rfl
  | directory _ ns =>
    have keeps (c : Node) : (if c.name = next then update f rest c else c).name = c.name := by
      split
      · exact name_update f rest c
      · rfl
    show named? name (ns.map _) = (named? name ns).map _
    rw [named?_map keeps]
    cases h : named? name ns with
    | none => rfl
    | some c => simp [name_of_named? h]

theorem entry_update (f : List Node → List Node) (p : Place) (n : Node) :
    (update f p n).entry = n.entry := by
  cases n <;> cases p <;> simp [update, entry]

/-- The directory that was changed. -/
theorem at?_update (f : List Node → List Node) (p : Place) (n : Node) :
    at? p (update f p n) = (at? p n).map (update f []) := by
  induction p generalizing n with
  | nil => rfl
  | cons name rest ih =>
    unfold at?
    rw [named?_update]
    cases named? name n.nodes with
    | none => rfl
    | some c => simp [ih]

/-- A change of what has the name `k` in the directory at `p` is seen there and below only. -/
theorem get?_update_of_not_below {f : List Node → List Node} {k : String}
    (hf : ∀ name ns, name ≠ k → named? name (f ns) = named? name ns) {p q : Place}
    (h : ¬ (p ++ [k]) <+: q) (n : Node) : get? (update f p n) q = get? n q := by
  unfold get?
  induction p generalizing q n with
  | nil =>
    cases q with
    | nil => simp [at?, entry_update]
    | cons name rest =>
      have ne : name ≠ k := fun e => h (by simp [e])
      cases n with
      | file => rfl
      | directory _ ns => simp only [update, at?, nodes, hf name ns ne]
  | cons next p ih =>
    cases q with
    | nil => simp [at?, entry_update]
    | cons name rest =>
      unfold at?
      rw [named?_update]
      cases named? name n.nodes with
      | none => rfl
      | some c =>
        by_cases e : name = next
        · simpa [e] using ih (fun below => h (by simpa [e] using below)) c
        · simp [e]

theorem get?_append (p q : Place) (n : Node) :
    get? n (p ++ q) = (at? p n).bind fun c => get? c q := by
  unfold get?
  rw [at?_append]
  cases at? p n <;> rfl

/-- A new file or empty directory is seen at its place and nowhere else. It is made in a directory,
and not in the place of one. -/
theorem get?_update_insert {n : Node} {p : Place} {name : String} (e : Entry)
    (inside : get? n p = some .directory) (free : get? n (p ++ [name]) ≠ some .directory)
    (q : Place) : get? (update (insert (ofEntry name e)) p n) q
      = if q = p ++ [name] then some e else get? n q := by
  by_cases h : p ++ [name] <+: q
  · obtain ⟨r, rfl⟩ := h
    have new : at? (p ++ [name]) (update (insert (ofEntry name e)) p n)
        = some (ofEntry name e) := by
      unfold get? at inside
      rw [at?_append, at?_update]
      cases hd : at? p n with
      | none => simp [hd] at inside
      | some d =>
        cases d with
        | file => simp [hd, entry] at inside
        | directory _ ns => simp [update, at?, nodes, named?_insert]
    rw [get?_append, new]
    cases r with
    | nil => simp [get?, at?]
    | cons m r =>
      have old : get? n (p ++ [name] ++ m :: r) = none := by
        unfold get? at free
        rw [get?_append]
        cases hc : at? (p ++ [name]) n with
        | none => rfl
        | some c =>
          cases c with
          | file => rfl
          | directory => simp [hc, entry] at free
      rw [old]
      simp [get?, at?, nodes_ofEntry, named?]
  · rw [get?_update_of_not_below (k := name) (fun m ns ne => by simp [named?_insert, ne]) h n]
    rw [if_neg fun same => h ⟨[], by simp [same]⟩]

/-- What is erased from a directory is gone, and all else stays. -/
theorem get?_update_erase {n : Node} {p : Place} {name : String}
    (free : get? n (p ++ [name]) ≠ some .directory) (q : Place) :
    get? (update (erase name) p n) q = if q = p ++ [name] then none else get? n q := by
  by_cases h : p ++ [name] <+: q
  · obtain ⟨r, rfl⟩ := h
    have gone : at? (p ++ [name]) (update (erase name) p n) = none := by
      rw [at?_append, at?_update]
      cases at? p n with
      | none => rfl
      | some d =>
        cases d with
        | file => rfl
        | directory _ ns => simp [update, at?, nodes, named?_erase]
    rw [get?_append, gone]
    split
    · rfl
    · rename_i ne
      rw [get?_append]
      unfold get? at free
      cases hc : at? (p ++ [name]) n with
      | none => rfl
      | some c =>
        cases c with
        | directory => simp [hc, entry] at free
        | file =>
          cases r with
          | nil => simp at ne
          | cons => rfl
  · rw [get?_update_of_not_below (k := name) (fun m ns ne => by simp [named?_erase, ne]) h n]
    rw [if_neg fun same => h ⟨[], by simp [same]⟩]

end Node

end FormDesign.Disk
