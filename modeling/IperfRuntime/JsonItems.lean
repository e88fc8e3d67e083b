import IperfRuntime.JsonTree
import IperfRuntime.LinkedCells

/-!
# JSON items in memory

The structures behind a tree and the functions of `cjson.c` that build, take apart and free
it: children are a list through `prev` and `next`, and a reference borrows the children of
another item. A computation without a result has followed a pointer to nothing, has freed an
item twice or has walked further than its fuel. Strings have memory of their own.
-/

namespace IperfRuntime.JsonItems

open JsonTree LinkedCells

/-- What the type of an item says it is, with the slot that goes with it. -/
inductive Value where
  | null
  | false
  | true
  | number (valueint : ℤ) (valuedouble : ℚ)
  | string (valuestring : String)
  | array
  | object
  deriving DecidableEq

/-- A `cJSON` besides the pointers to its siblings. -/
structure Item where
  value : Value
  /-- `cJSON_IsReference`. -/
  reference : Bool := false
  /-- The first of its children. -/
  child : Option ℕ := none
  /-- The name of a member. -/
  string : Option String := none
  deriving DecidableEq

/-- The items in memory. -/
abbrev Heap := Memory Item

/-- A write through a pointer. -/
def write (a : ℕ) (f : Cell Item → Cell Item) (m : Heap) : Option Heap :=
  if (m a).isSome then some (m.modify a f) else none

/-- A write to the item itself. -/
def writeItem (a : ℕ) (f : Item → Item) (m : Heap) : Option Heap :=
  write a (fun c => { c with data := f c.data }) m

/-- `cJSON_New_Item` with what is filled in; the allocator picks the address. -/
def newItem (a : ℕ) (item : Item) (m : Heap) : Option Heap :=
  if (m a).isSome then none else some (Function.update m a (some ⟨item, none, none⟩))

/-- `free`. -/
def free (a : ℕ) (m : Heap) : Option Heap :=
  if (m a).isSome then some (Function.update m a none) else none

/-- `while (c && c->next) c=c->next`. -/
def lastItem (m : Heap) : ℕ → ℕ → Option ℕ
  | 0, _ => none
  | fuel + 1, c => do
    let cell ← m c
    match cell.next with
    | none => some c
    | some next => lastItem m fuel next

/-- `suffix_object`. -/
def suffixObject (prev item : ℕ) (m : Heap) : Option Heap := do
  let m ← write prev (fun c => { c with next := some item }) m
  write item (fun c => { c with prev := some prev }) m

/-- `cJSON_AddItemToArray`. -/
def addItemToArray (fuel array item : ℕ) (m : Heap) : Option Heap := do
  let cell ← m array
  match cell.data.child with
  | none => writeItem array (fun i => { i with child := some item }) m
  | some c => do
    let c ← lastItem m fuel c
    suffixObject c item m

/-- `cJSON_AddItemToObject`. -/
def addItemToObject (fuel object : ℕ) (string : String) (item : ℕ) (m : Heap) : Option Heap := do
  let m ← writeItem item (fun i => { i with string := some string }) m
  addItemToArray fuel object item m

/-- `create_reference`. -/
def createReference (item ref : ℕ) (m : Heap) : Option Heap := do
  let cell ← m item
  newItem ref { cell.data with string := none, reference := true } m

/-- `while (c && which>0) c=c->next,which--`. -/
def itemAt (m : Heap) : Option ℕ → ℕ → Option (Option ℕ)
  | none, _ => some none
  | some c, 0 => some (some c)
  | some c, which + 1 => do
    let cell ← m c
    itemAt m cell.next which

/-- A write to a sibling, if there is one. -/
def writeSibling (p : Option ℕ) (f : Cell Item → Cell Item) (m : Heap) : Option Heap :=
  match p with
  | none => some m
  | some a => write a f m

/-- `if (c==array->child) array->child=c->next`. -/
def passHead (array c : ℕ) (child next : Option ℕ) (m : Heap) : Option Heap :=
  if child = some c then writeItem array (fun i => { i with child := next }) m else some m

/-- `cJSON_DetachItemFromArray`: the item that stands alone then, and the memory. -/
def detachItemFromArray (array which : ℕ) (m : Heap) : Option (Option ℕ × Heap) := do
  let cell ← m array
  match ← itemAt m cell.data.child which with
  | none => some (none, m)
  | some c => do
    let item ← m c
    let m ← writeSibling item.prev (fun d => { d with next := item.next }) m
    let m ← writeSibling item.next (fun d => { d with prev := item.prev }) m
    let m ← passHead array c cell.data.child item.next m
    let m ← write c (fun d => { d with prev := none, next := none }) m
    some (some c, m)

/-- The loop of `cJSON_DetachItemFromObject`: the position of the first child of a name. -/
def memberIndex (m : Heap) (string : String) : ℕ → Option ℕ → ℕ → Option (Option ℕ)
  | _, none, _ => some none
  | 0, some _, _ => none
  | fuel + 1, some c, i => do
    let cell ← m c
    if cell.data.string.any (sameKey · string) then some (some i)
    else memberIndex m string fuel cell.next (i + 1)

/-- `cJSON_DetachItemFromObject`. -/
def detachItemFromObject (fuel object : ℕ) (string : String) (m : Heap) :
    Option (Option ℕ × Heap) := do
  let cell ← m object
  match ← memberIndex m string fuel cell.data.child 0 with
  | none => some (none, m)
  | some i => detachItemFromArray object i m

/-- `cJSON_Delete`. -/
def delete : ℕ → Option ℕ → Heap → Option Heap
  | _, none, m => some m
  | 0, some _, _ => none
  | fuel + 1, some c, m =>
    (m c).bind fun cell =>
      ((if cell.data.reference then some m else delete fuel cell.data.child m).bind (free c)).bind
        (delete fuel cell.next)

/-- An item with the items that it owns. -/
inductive Node where
  | mk (address : ℕ) (item : Item) (children : List Node)

def Node.address : Node → ℕ
  | ⟨address, _, _⟩ => address

def Node.item : Node → Item
  | ⟨_, item, _⟩ => item

def Node.children : Node → List Node
  | ⟨_, _, children⟩ => children

mutual

/-- The addresses of an item and of all below it. -/
def Node.owned : Node → List ℕ
  | ⟨address, _, children⟩ => address :: ownedAll children

/-- The addresses of some items and of all below them. -/
def ownedAll : List Node → List ℕ
  | [] => []
  | node :: nodes => node.owned ++ ownedAll nodes

end

/-- Items in the list that joins them. -/
def cells (nodes : List Node) : List (ℕ × Item) := nodes.map fun node => (node.address, node.item)

/-- An item points to the first of its children; a reference owns none. -/
def Headed (item : Item) (children : List Node) : Prop :=
  if item.reference then children = [] else item.child = first (cells children) none

mutual

/-- What is below an item is in memory. -/
def Node.Holds (m : Heap) : Node → Prop
  | ⟨_, item, children⟩ =>
    Headed item children ∧ Segment m none (cells children) none ∧ HoldsAll m children

/-- What is below some items is in memory. -/
def HoldsAll (m : Heap) : List Node → Prop
  | [] => True
  | node :: nodes => node.Holds m ∧ HoldsAll m nodes

end

/-- Siblings with all below them. -/
def Forest (m : Heap) (nodes : List Node) : Prop :=
  Segment m none (cells nodes) none ∧ HoldsAll m nodes

variable {m m' : Heap} {a b : ℕ} {item : Item} {node : Node} {nodes children : List Node}

/-- The blocks of a row of nodes are the blocks of each node in turn. -/
theorem ownedAll_eq (nodes : List Node) : ownedAll nodes = nodes.flatMap Node.owned := by
  induction nodes with
  | nil => rfl
  | cons node nodes ih => rw [ownedAll, ih, List.flatMap_cons]

/-- Two rows own what the first owns and then what the second owns. -/
theorem ownedAll_append (pre post : List Node) :
    ownedAll (pre ++ post) = ownedAll pre ++ ownedAll post := by
  rw [ownedAll_eq, ownedAll_eq, ownedAll_eq, List.flatMap_append]

/-- A row holds in memory exactly if every node of it does. -/
theorem holdsAll_iff : HoldsAll m nodes ↔ ∀ node ∈ nodes, node.Holds m := by
  induction nodes with
  | nil => exact ⟨fun _ node hnode => absurd hnode List.not_mem_nil, fun _ => trivial⟩
  | cons node nodes ih => rw [HoldsAll, ih, List.forall_mem_cons]

/-- A node owns its own block and whatever its children own. -/
theorem owned_eq (node : Node) : node.owned = node.address :: ownedAll node.children := by
  cases node
  rw [Node.owned]
  rfl

/-- A node holds if its item heads the chain of its children and the children form a forest. -/
theorem holds_eq (node : Node) : node.Holds m ↔
    Headed node.item node.children ∧ Forest m node.children := by
  cases node
  rw [Node.Holds]
  rfl

/-- A node owns the block at its own address. -/
theorem address_mem_owned (node : Node) : node.address ∈ node.owned := by
  rw [owned_eq]
  exact List.mem_cons_self

/-- The cells of a row lie at the addresses of its nodes. -/
theorem keys_cells (nodes : List Node) : keys (cells nodes) = nodes.map Node.address := by
  unfold keys cells
  rw [List.map_map]
  rfl

/-- Those addresses are among the blocks that the row owns. -/
theorem keys_subset : keys (cells nodes) ⊆ ownedAll nodes := by
  intro b hb
  rw [keys_cells] at hb
  obtain ⟨node, hnode, rfl⟩ := List.mem_map.mp hb
  rw [ownedAll_eq]
  exact List.mem_flatMap.mpr ⟨node, hnode, address_mem_owned node⟩

/-- Where no block is owned twice, no address occurs twice in the row. -/
theorem nodup_keys (h : (ownedAll nodes).Nodup) : (keys (cells nodes)).Nodup := by
  induction nodes with
  | nil => exact List.nodup_nil
  | cons node nodes ih =>
    rw [ownedAll] at h
    obtain ⟨-, hrest, hcross⟩ := List.nodup_append.mp h
    refine List.nodup_cons.mpr ⟨fun hmem => ?_, ih hrest⟩
    exact hcross _ (address_mem_owned node) _ (keys_subset hmem) rfl

/-- Induction over the items below an item. -/
theorem node_induction {motive : Node → Prop}
    (h : ∀ node, (∀ child ∈ node.children, motive child) → motive node) (node : Node) :
    motive node := by
  refine @Node.rec motive (fun nodes => ∀ node ∈ nodes, motive node)
    (fun address item children hchildren => h ⟨address, item, children⟩ hchildren)
    (fun node hnode => absurd hnode List.not_mem_nil) (fun node nodes hnode hnodes => ?_) node
  exact List.forall_mem_cons.mpr ⟨hnode, hnodes⟩

/-- What is below an item depends on its own addresses only. -/
theorem Node.Holds.congr (h : node.Holds m) (hsame : ∀ b ∈ ownedAll node.children, m' b = m b) :
    node.Holds m' := by
  induction node using node_induction with
  | h node ih =>
    obtain ⟨hheaded, hsegment, hall⟩ := (holds_eq node).mp h
    refine (holds_eq node).mpr ⟨hheaded, hsegment.congr fun b hb => hsame b (keys_subset hb), ?_⟩
    refine holdsAll_iff.mpr fun child hchild => ih child hchild
        (holdsAll_iff.mp hall child hchild) ?_
    intro b hb
    refine hsame b ?_
    rw [ownedAll_eq]
    refine List.mem_flatMap.mpr ⟨child, hchild, ?_⟩
    rw [owned_eq]
    exact List.mem_cons_of_mem _ hb

/-- Rows hold in any memory that agrees on the blocks they own. -/
theorem HoldsAll.congr (h : HoldsAll m nodes) (hsame : ∀ b ∈ ownedAll nodes, m' b = m b) :
    HoldsAll m' nodes := by
  refine holdsAll_iff.mpr fun node hnode => (holdsAll_iff.mp h node hnode).congr fun b hb => ?_
  refine hsame b ?_
  rw [ownedAll_eq]
  refine List.mem_flatMap.mpr ⟨node, hnode, ?_⟩
  rw [owned_eq]
  exact List.mem_cons_of_mem _ hb

/-- So do forests, whose links lie in the same blocks. -/
theorem Forest.congr (h : Forest m nodes) (hsame : ∀ b ∈ ownedAll nodes, m' b = m b) :
    Forest m' nodes :=
  ⟨h.1.congr fun b hb => hsame b (keys_subset hb), h.2.congr hsame⟩

/-- What is below some siblings. -/
def belowAll (nodes : List Node) : List ℕ := nodes.flatMap fun node => ownedAll node.children

/-- What a row owns is its own cells and the blocks below them, in some order. -/
theorem perm_ownedAll (nodes : List Node) :
    (ownedAll nodes).Perm (keys (cells nodes) ++ belowAll nodes) := by
  induction nodes with
  | nil =>
    rw [ownedAll]
    exact List.Perm.nil
  | cons node nodes ih =>
    have hcells : keys (cells (node :: nodes)) = node.address :: keys (cells nodes) := rfl
    have hbelow : belowAll (node :: nodes) = ownedAll node.children ++ belowAll nodes :=
      List.flatMap_cons
    rw [ownedAll, owned_eq, hcells, hbelow, List.cons_append, List.cons_append]
    refine List.Perm.cons _ ((List.Perm.append_left _ ih).trans ?_)
    rw [← List.append_assoc, ← List.append_assoc]
    exact List.Perm.append_right _ List.perm_append_comm

/-- Below the row itself only the lower blocks count, so its links may change freely. -/
theorem HoldsAll.congr_below (h : HoldsAll m nodes) (hsame : ∀ b ∈ belowAll nodes, m' b = m b) :
    HoldsAll m' nodes := by
  refine holdsAll_iff.mpr fun node hnode => (holdsAll_iff.mp h node hnode).congr fun b hb => ?_
  exact hsame b (List.mem_flatMap.mpr ⟨node, hnode, hb⟩)

/-- Freeing a block that is allocated succeeds and empties the address. -/
theorem free_eq (h : (m a).isSome = true) : free a m = some (Function.update m a none) := by
  unfold free
  rw [if_pos h]

/-- `cJSON_Delete` frees siblings and all that they own, each item once, and nothing else. The
induction is on the fuel, of which every item takes one. -/
theorem delete_eq {fuel : ℕ} {prev : Option ℕ} (hfuel : (ownedAll nodes).length ≤ fuel)
    (hsegment : Segment m prev (cells nodes) none) (hall : HoldsAll m nodes)
    (hnodup : (ownedAll nodes).Nodup) :
    delete fuel (first (cells nodes) none) m =
      some fun b => if b ∈ ownedAll nodes then none else m b := by
  induction fuel generalizing nodes m prev with
  | zero =>
    cases nodes with
    | nil =>
      rw [ownedAll]
      unfold first cells delete
      rfl
    | cons node nodes =>
      rw [ownedAll, List.length_append, owned_eq, List.length_cons] at hfuel
      omega
  | succ fuel ih =>
    cases nodes with
    | nil =>
      rw [ownedAll]
      unfold first cells delete
      rfl
    | cons node nodes =>
      obtain ⟨hcell, hrest⟩ := segment_cons.mp hsegment
      obtain ⟨hholds, hallRest⟩ := hall
      obtain ⟨hheaded, hbelow⟩ := (holds_eq node).mp hholds
      rw [ownedAll] at hfuel hnodup ⊢
      rw [owned_eq] at hfuel hnodup ⊢
      rw [List.length_append, List.length_cons] at hfuel
      obtain ⟨hnode, hnodesNodup, hcross⟩ := List.nodup_append.mp hnodup
      obtain ⟨hself, hchildrenNodup⟩ := List.nodup_cons.mp hnode
      let m₁ : Heap := fun b => if b ∈ ownedAll node.children then none else m b
      have hbelowFreed : (if node.item.reference then some m else
          delete fuel node.item.child m) = some m₁ := by
        unfold Headed at hheaded
        split
        · rename_i href
          rw [if_pos href] at hheaded
          refine congrArg some (funext fun b => ?_)
          have hnone : b ∉ ownedAll node.children := by
            rw [hheaded, ownedAll]
            exact List.not_mem_nil
          exact (if_neg hnone).symm
        · rename_i hown
          rw [if_neg hown] at hheaded
          rw [hheaded]
          exact ih (by omega) hbelow.1 hbelow.2 hchildrenNodup
      have hself₁ : m₁ node.address = m node.address := if_neg hself
      have hfree : free node.address m₁ = some (Function.update m₁ node.address none) := by
        refine free_eq ?_
        rw [hself₁, hcell]
        rfl
      have hkept : ∀ b ∈ ownedAll nodes, Function.update m₁ node.address none b = m b := by
        intro b hb
        have hne : b ≠ node.address := fun heq => hcross _ List.mem_cons_self _ hb heq.symm
        have hout : b ∉ ownedAll node.children :=
          fun hmem => hcross _ (List.mem_cons_of_mem _ hmem) _ hb rfl
        rw [Function.update_of_ne hne]
        exact if_neg hout
      have hnext := ih (by omega) (hrest.congr fun b hb => hkept b (keys_subset hb))
        (hallRest.congr hkept) hnodesNodup
      have hcells : first (cells (node :: nodes)) none = some node.address := rfl
      rw [hcells, delete]
      have hcell' : m node.address = some ⟨node.item, prev, first (cells nodes) none⟩ := hcell
      rw [hcell', Option.bind_some]
      dsimp only
      rw [hbelowFreed, Option.bind_some, hfree, Option.bind_some, hnext]
      refine congrArg some (funext fun b => ?_)
      by_cases hnodes : b ∈ ownedAll nodes
      · rw [if_pos hnodes, if_pos (List.mem_append_right _ hnodes)]
      · rw [if_neg hnodes]
        by_cases hb : b = node.address
        · rw [hb, Function.update_self, if_pos (List.mem_append_left _ List.mem_cons_self)]
        · rw [Function.update_of_ne hb]
          refine if_congr ?_ rfl rfl
          rw [List.mem_append, List.mem_cons]
          exact ⟨fun h => Or.inl (Or.inr h), fun h => (h.resolve_right hnodes).resolve_left hb⟩

/-- Writing to a block that is allocated succeeds and changes that cell only. -/
theorem write_eq {f : Cell Item → Cell Item} (h : (m a).isSome = true) :
    write a f m = some (m.modify a f) := by
  unfold write
  rw [if_pos h]

/-- The walk to the end of a list that is not empty. -/
theorem lastItem_eq {fuel : ℕ} {prev : Option ℕ} {e : ℕ × Item} {l : List (ℕ × Item)}
    (h : Segment m prev (e :: l) none) (hfuel : l.length < fuel) :
    lastItem m fuel e.1 = last prev (e :: l) := by
  induction fuel generalizing prev e l with
  | zero => omega
  | succ fuel ih =>
    obtain ⟨hcell, hrest⟩ := h
    rw [lastItem, hcell]
    cases l with
    | nil => rfl
    | cons x l =>
      rw [List.length_cons] at hfuel
      exact ih hrest (by omega)

/-- The walk to a position that there is. -/
theorem itemAt_eq {prev : Option ℕ} {pre post : List (ℕ × Item)} {e : ℕ × Item}
    (h : Segment m prev (pre ++ e :: post) none) :
    itemAt m (first (pre ++ e :: post) none) pre.length = some (some e.1) := by
  induction pre generalizing prev with
  | nil => rfl
  | cons x pre ih =>
    obtain ⟨hcell, hrest⟩ := h
    have hfirst : first (x :: pre ++ e :: post) none = some x.1 := rfl
    rw [hfirst, List.length_cons, itemAt, hcell]
    exact ih hrest

/-- A cell that gets another content and keeps its neighbours. -/
theorem segment_replace {pre post : List (ℕ × Item)} {e e' : ℕ × Item} {prev : Option ℕ}
    (h : Segment m prev (pre ++ e :: post) none) (haddress : e'.1 = e.1)
    (hpre : ∀ b ∈ keys pre, m' b = m b) (hpost : ∀ b ∈ keys post, m' b = m b)
    (hcell : ∀ cell, m e.1 = some cell → m' e.1 = some { cell with data := e'.2 }) :
    Segment m' prev (pre ++ e' :: post) none := by
  obtain ⟨hfront, hself, hback⟩ := segment_append.mp h
  have hfirst : first (e' :: post) none = first (e :: post) none := congrArg some haddress
  refine segment_append.mpr ⟨?_, ?_, ?_⟩
  · rw [hfirst]
    exact hfront.congr hpre
  · rw [haddress]
    exact hcell _ hself
  · rw [haddress]
    exact hback.congr hpost

/-- An item that points to the first of some children. -/
def headed (item : Item) (children : List Node) : Item :=
  { item with child := first (cells children) none }

/-- The facts about an item and its children that the routines rely on. -/
structure Parent (m : Heap) (a : ℕ) (item : Item) (children : List Node) : Prop where
  own : item.reference = false
  cell : ∃ prev next, m a = some ⟨item, prev, next⟩
  child : item.child = first (cells children) none
  forest : Forest m children

/-- A cell with other content. -/
def Refilled (m m' : Heap) (a : ℕ) (item : Item) : Prop :=
  ∀ cell, m a = some cell → m' a = some { cell with data := item }

/-- Changing the data of a cell refills it and leaves its links alone. -/
theorem refilled_modify {f : Item → Item} (hcell : ∃ prev next, m a = some ⟨item, prev, next⟩) :
    Refilled m (m.modify a fun c => { c with data := f c.data }) a (f item) := by
  obtain ⟨prev, next, hcell⟩ := hcell
  intro cell h
  rw [hcell] at h
  cases h
  exact modify_same hcell

/-- A write does not make or take away a cell. -/
theorem isSome_modify_eq (a : ℕ) (f : Cell Item → Cell Item) (b : ℕ) :
    (m.modify a f b).isSome = (m b).isSome := by
  by_cases hba : b = a
  · subst hba
    unfold Memory.modify
    rw [Function.update_self, Option.isSome_map]
  · rw [modify_other hba]

/-- Two writes that do the same to the cell that is there. -/
theorem modify_congr {f g : Cell Item → Cell Item} {c : Cell Item} (hcell : m a = some c)
    (hsame : f c = g c) : m.modify a f = m.modify a g := by
  unfold Memory.modify
  rw [hcell, Option.map_some, Option.map_some, hsame]

/-- The cells of two rows are those of the first followed by those of the second. -/
theorem cells_append (pre post : List Node) : cells (pre ++ post) = cells pre ++ cells post :=
  List.map_append

/-- The same holds of the blocks below them. -/
theorem belowAll_append (pre post : List Node) :
    belowAll (pre ++ post) = belowAll pre ++ belowAll post := List.flatMap_append

/-- Below a single node lie the blocks of its children. -/
theorem belowAll_singleton (x : Node) : belowAll [x] = ownedAll x.children := by
  unfold belowAll
  rw [List.flatMap_cons, List.flatMap_nil, List.append_nil]

/-- What is below siblings is apart from them and from an item that owns them. -/
theorem below_apart {rest : List ℕ} (hnodup : (a :: (ownedAll children ++ rest)).Nodup)
    (hb : b ∈ belowAll children) : b ≠ a ∧ b ∉ keys (cells children) ∧ b ∉ rest := by
  obtain ⟨hself, hothers⟩ := List.nodup_cons.mp hnodup
  obtain ⟨hchildren, -, hcross⟩ := List.nodup_append.mp hothers
  have hperm := perm_ownedAll children
  have howned : b ∈ ownedAll children := hperm.mem_iff.mpr (List.mem_append_right _ hb)
  refine ⟨?_, ?_, fun hmem => hcross _ howned _ hmem rfl⟩
  · rintro rfl
    exact hself (List.mem_append_left _ howned)
  · intro hkey
    exact (List.nodup_append.mp (hperm.nodup_iff.mp hchildren)).2.2 _ hkey _ hb rfl

/-- An item whose chain is not empty still heads it when further children follow. -/
theorem headed_of_cons (hchild : item.child = first (cells children) none) (hne : children ≠ [])
    (post : List Node) : headed item (children ++ post) = item := by
  obtain ⟨y, ys, rfl⟩ := List.exists_cons_of_ne_nil hne
  have hfirst : first (cells (y :: ys ++ post)) none = first (cells (y :: ys)) none := rfl
  unfold headed
  rw [hfirst, ← hchild]

/-- A cell that is left as it was counts as refilled with its own item. -/
theorem refilled_same (hcell : ∃ prev next, m a = some ⟨item, prev, next⟩) (hsame : m' a = m a) :
    Refilled m m' a item := by
  obtain ⟨prev, next, hcell⟩ := hcell
  intro cell h
  rw [hcell] at h
  cases h
  rw [hsame, hcell]

/-- The item with all below it. -/
theorem forest_singleton {x : Node} :
    Forest m [x] ↔ m x.address = some ⟨x.item, none, none⟩ ∧ x.Holds m := by
  unfold Forest
  rw [HoldsAll, HoldsAll]
  exact ⟨fun h => ⟨h.1.1, h.2.1⟩, fun h => ⟨⟨h.1, trivial⟩, h.2, trivial⟩⟩

/-- `suffix_object` links an item that stands alone behind the last one. -/
theorem suffixObject_eq {z x : ℕ} (hz : (m z).isSome = true) (hx : m x = some ⟨item, none, none⟩)
    (hne : x ≠ z) : suffixObject z x m = some (link (some z) x none m) := by
  have hother : m.modify z (fun c => { c with next := some x }) x = some ⟨item, none, none⟩ :=
    (modify_other hne).trans hx
  unfold suffixObject
  rw [write_eq hz]
  dsimp only [Option.bind_eq_bind, Option.bind_some]
  rw [write_eq (by rw [hother]; rfl)]
  refine congrArg some ?_
  exact modify_congr hother rfl

/-- What is below an item is apart from it, from siblings beside it and from their owner. -/
theorem below_outside {x : Node} (hnodup : (a :: (ownedAll children ++ x.owned)).Nodup)
    (hb : b ∈ ownedAll x.children) : b ≠ a ∧ b ∉ keys (cells children) ∧ b ≠ x.address := by
  obtain ⟨hself, hothers⟩ := List.nodup_cons.mp hnodup
  obtain ⟨-, hxnodup, hcross⟩ := List.nodup_append.mp hothers
  have hbx : b ∈ x.owned := by
    rw [owned_eq]
    exact List.mem_cons_of_mem _ hb
  refine ⟨?_, fun hkey => hcross _ (keys_subset hkey) _ hbx rfl, ?_⟩
  · rintro rfl
    exact hself (List.mem_append_right _ hbx)
  · rintro rfl
    rw [owned_eq] at hxnodup
    exact (List.nodup_cons.mp hxnodup).1 hb

/-- An item outside the ownership of siblings is none of them. -/
theorem address_outside {x : Node} (hnodup : (a :: (ownedAll children ++ x.owned)).Nodup) :
    x.address ≠ a ∧ x.address ∉ keys (cells children) := by
  obtain ⟨hself, hothers⟩ := List.nodup_cons.mp hnodup
  obtain ⟨-, -, hcross⟩ := List.nodup_append.mp hothers
  refine ⟨?_, fun hmem => hcross _ (keys_subset hmem) _ (address_mem_owned x) rfl⟩
  intro heq
  exact hself (List.mem_append_right _ (heq ▸ address_mem_owned x))

/-- The first item of an array becomes the child of its owner. -/
theorem addItemToArray_first {fuel : ℕ} {x : Node} (hparent : Parent m a item [])
    (hx : Forest m [x]) (hself : a ∉ x.owned) :
    ∃ m', addItemToArray fuel a x.address m = some m' ∧ Forest m' [x] ∧
      Refilled m m' a (headed item [x]) ∧ (∀ b, b ≠ a → m' b = m b) ∧
      ∀ b, (m' b).isSome = (m b).isSome := by
  obtain ⟨prev, next, hcell⟩ := hparent.cell
  have hchild : item.child = none := hparent.child
  have hadd : addItemToArray fuel a x.address m =
      some (m.modify a fun c => { c with data := { c.data with child := some x.address } }) := by
    unfold addItemToArray
    rw [hcell]
    dsimp only [Option.bind_eq_bind, Option.bind_some]
    rw [hchild]
    exact write_eq (by rw [hcell]; rfl)
  refine ⟨_, hadd, ?_, ?_, fun b hb => modify_other hb, isSome_modify_eq a _⟩
  · refine hx.congr fun b hb => modify_other ?_
    rintro rfl
    rw [ownedAll, ownedAll, List.append_nil] at hb
    exact hself hb
  · exact refilled_modify (f := fun i => { i with child := some x.address }) hparent.cell

/-- A further item is linked behind the last of its siblings, which the loop finds within its
fuel; the parent is left as it is. -/
theorem addItemToArray_further {fuel : ℕ} {x : Node} (hparent : Parent m a item children)
    (hne : children ≠ []) (hfuel : children.length ≤ fuel)
    (hcell : m x.address = some ⟨x.item, none, none⟩) (hout : x.address ∉ keys (cells children)) :
    addItemToArray fuel a x.address m =
      some (link (last none (cells children)) x.address none m) := by
  obtain ⟨y, ys, rfl⟩ := List.exists_cons_of_ne_nil hne
  obtain ⟨prev, next, hself⟩ := hparent.cell
  have hchild : item.child = some y.address := hparent.child
  have hlast : lastItem m fuel y.address = last none (cells (y :: ys)) := by
    refine lastItem_eq hparent.forest.1 ?_
    rw [List.length_cons] at hfuel
    rw [List.length_map]
    omega
  obtain ⟨z, hz⟩ : ∃ z, last none (cells (y :: ys)) = some z := by
    cases hnone : last none (cells (y :: ys)) with
    | none => exact absurd (last_eq_none hnone) (List.cons_ne_nil _ _)
    | some z => exact ⟨z, rfl⟩
  have hxz : x.address ≠ z := by
    rintro rfl
    exact hout (last_eq_some hz)
  unfold addItemToArray
  rw [hself]
  dsimp only [Option.bind_eq_bind, Option.bind_some]
  rw [hchild]
  dsimp only
  rw [hlast, hz, Option.bind_some]
  exact suffixObject_eq (hparent.forest.1.isSome (last_eq_some hz)) hcell hxz

/-- The link behind the last sibling writes to siblings and to the new one. -/
theorem link_outside {x : Node} (hb : b ∉ keys (cells children)) (hbx : b ≠ x.address) :
    link (last none (cells children)) x.address none m b = m b := by
  have hkeys : b ∉ keys (cells children ++ []) := by rwa [List.append_nil]
  exact @link_other _ m x.address b (cells children) [] hkeys hbx

/-- It makes the new item the last of the siblings; what each of them owns is untouched by the
two links. -/
theorem link_forest {x : Node} (hforest : Forest m children) (hx : Forest m [x])
    (hnodup : (a :: (ownedAll children ++ x.owned)).Nodup) :
    Forest (link (last none (cells children)) x.address none m) (children ++ [x]) := by
  obtain ⟨hxcell, hxholds⟩ := forest_singleton.mp hx
  obtain ⟨-, hothers⟩ := List.nodup_cons.mp hnodup
  refine ⟨?_, ?_⟩
  · rw [cells_append]
    refine @Segment.link _ m _ (cells children) [] (x.address, x.item) ?_ ?_ ?_ hxcell rfl
    · rw [List.append_nil]
      exact hforest.1
    · rw [List.append_nil]
      exact nodup_keys (List.nodup_append.mp hothers).1
    · rw [List.append_nil]
      exact (address_outside hnodup).2
  · have hall : HoldsAll m (children ++ [x]) := by
      refine holdsAll_iff.mpr fun node hnode => ?_
      rcases List.mem_append.mp hnode with hnode | hnode
      · exact holdsAll_iff.mp hforest.2 node hnode
      · rw [List.mem_singleton.mp hnode]
        exact hxholds
    refine hall.congr_below fun b hb => ?_
    rw [belowAll_append, belowAll_singleton] at hb
    rcases List.mem_append.mp hb with hb | hb
    · obtain ⟨-, hkey, hxout⟩ := below_apart hnodup hb
      exact link_outside hkey fun heq => hxout (heq ▸ address_mem_owned x)
    · obtain ⟨-, hkey, hbx⟩ := below_outside hnodup hb
      exact link_outside hkey hbx

/-- `cJSON_AddItemToArray` puts an item behind the children. -/
theorem addItemToArray_spec {fuel : ℕ} {x : Node} (hparent : Parent m a item children)
    (hx : Forest m [x]) (hnodup : (a :: (ownedAll children ++ x.owned)).Nodup)
    (hfuel : children.length ≤ fuel) :
    ∃ m', addItemToArray fuel a x.address m = some m' ∧ Forest m' (children ++ [x]) ∧
      Refilled m m' a (headed item (children ++ [x])) ∧
      (∀ b, b ≠ a → b ∉ keys (cells children) → b ≠ x.address → m' b = m b) ∧
      ∀ b, (m' b).isSome = (m b).isSome := by
  have hself := (List.nodup_cons.mp hnodup).1
  obtain ⟨hxa, hxout⟩ := address_outside hnodup
  by_cases hempty : children = []
  · subst hempty
    obtain ⟨m', hadd, hforest, hrefilled, hother, hsome⟩ :=
      @addItemToArray_first m a item fuel x hparent hx
        fun hmem => hself (List.mem_append_right _ hmem)
    exact ⟨m', hadd, hforest, hrefilled, fun b hb _ _ => hother b hb, hsome⟩
  · have haout : a ∉ keys (cells children) :=
      fun hmem => hself (List.mem_append_left _ (keys_subset hmem))
    refine ⟨_, addItemToArray_further hparent hempty hfuel (forest_singleton.mp hx).1 hxout,
      link_forest hparent.forest hx hnodup, ?_, fun b _ hb hbx => link_outside hb hbx,
      fun b => ?_⟩
    · rw [headed_of_cons hparent.child hempty]
      exact refilled_same hparent.cell (link_outside haout hxa.symm)
    · unfold link setNext setPrev
      cases last none (cells children) <;> simp only [isSome_modify_eq]

/-- The writes to two neighbours take a cell out of its list. -/
theorem writeSiblings_eq {p n : Option ℕ} (hp : ∀ z ∈ p, (m z).isSome = true)
    (hn : ∀ z ∈ n, (m z).isSome = true) :
    ((writeSibling p (fun d => { d with next := n }) m).bind
      (writeSibling n fun d => { d with prev := p })) = some (unlink p n m) := by
  have hfront : writeSibling p (fun d => { d with next := n }) m = some (setNext p n m) := by
    cases p with
    | none => rfl
    | some z => exact write_eq (hp z rfl)
  rw [hfront, Option.bind_some]
  cases n with
  | none => rfl
  | some z => exact write_eq (isSome_setNext p _ (hn z rfl))

/-- The owner of a child that is taken out points to the next one if the child was its first,
and stays as it is otherwise. -/
theorem passHead_eq {x : Node} {pre post : List Node} (hparent : Parent m a item (pre ++ x :: post))
    (hnodup : (a :: ownedAll (pre ++ x :: post)).Nodup) (hcell : m' a = m a) :
    ∃ m'', passHead a x.address item.child (first (cells post) none) m' = some m'' ∧
      Refilled m m'' a (headed item (pre ++ post)) ∧ (∀ b, b ≠ a → m'' b = m' b) ∧
      ∀ b, (m'' b).isSome = (m' b).isSome := by
  obtain ⟨prev, next, hself⟩ := hparent.cell
  cases pre with
  | nil =>
    have hchild : item.child = some x.address := hparent.child
    unfold passHead
    rw [if_pos hchild]
    refine ⟨_, write_eq (by rw [hcell, hself]; rfl), ?_, fun b hb => modify_other hb,
      isSome_modify_eq a _⟩
    intro cell h
    rw [hself] at h
    cases h
    exact modify_same (hcell.trans hself)
  | cons y ys =>
    have hchild : item.child = some y.address := hparent.child
    have hne : item.child ≠ some x.address := by
      rw [hchild]
      intro heq
      have hkeys := nodup_keys (List.nodup_cons.mp hnodup).2
      rw [keys_cells, List.cons_append, List.map_cons] at hkeys
      refine (List.nodup_cons.mp hkeys).1 ?_
      rw [Option.some.inj heq]
      exact List.mem_map_of_mem (List.mem_append_right _ List.mem_cons_self)
    unfold passHead
    have hitem : headed item (y :: ys ++ post) = item :=
      headed_of_cons hchild (List.cons_ne_nil _ _) post
    rw [if_neg hne, hitem]
    exact ⟨m', rfl, refilled_same hparent.cell hcell, fun b _ => rfl, fun b => rfl⟩

section Detach

variable {x : Node} {pre post : List Node}

/-- The siblings of a child are among the children. -/
theorem keys_beside (hb : b ∈ keys (cells pre ++ cells post)) :
    b ∈ keys (cells (pre ++ x :: post)) := by
  rw [cells_append, keys_append]
  rw [keys_append] at hb
  rcases List.mem_append.mp hb with hb | hb
  · exact List.mem_append_left _ hb
  · exact List.mem_append_right _ (List.mem_cons_of_mem _ hb)

/-- A child is one of the children. -/
theorem address_mem_keys : x.address ∈ keys (cells (pre ++ x :: post)) := by
  rw [keys_cells]
  exact List.mem_map_of_mem (List.mem_append_right _ List.mem_cons_self)

/-- A child is none of its siblings. -/
theorem address_not_beside (hnodup : (ownedAll (pre ++ x :: post)).Nodup) :
    x.address ∉ keys (cells pre ++ cells post) := by
  have hkeys : (keys (cells pre ++ (x.address, x.item) :: cells post)).Nodup := by
    have hall := nodup_keys hnodup
    rwa [cells_append] at hall
  intro hmem
  rw [keys_append, keys_cons] at hkeys
  rw [keys_append] at hmem
  obtain ⟨-, htail, hcross⟩ := List.nodup_append.mp hkeys
  rcases List.mem_append.mp hmem with hmem | hmem
  · exact hcross _ hmem _ List.mem_cons_self rfl
  · exact (List.nodup_cons.mp htail).1 hmem

/-- What is below the siblings of a child is below the children. -/
theorem below_beside (hb : b ∈ belowAll (pre ++ post)) : b ∈ belowAll (pre ++ x :: post) := by
  rw [belowAll_append] at hb ⊢
  rcases List.mem_append.mp hb with hb | hb
  · exact List.mem_append_left _ hb
  · refine List.mem_append_right _ ?_
    unfold belowAll
    rw [List.flatMap_cons]
    exact List.mem_append_right _ hb

/-- What is below a child is below the children. -/
theorem below_child (hb : b ∈ ownedAll x.children) : b ∈ belowAll (pre ++ x :: post) := by
  rw [belowAll_append]
  refine List.mem_append_right _ ?_
  unfold belowAll
  rw [List.flatMap_cons]
  exact List.mem_append_left _ hb

/-- The cell of a child among its siblings. -/
theorem segment_child (hforest : Forest m (pre ++ x :: post)) :
    Segment m none (cells pre ++ (x.address, x.item) :: cells post) none ∧
      m x.address = some ⟨x.item, last none (cells pre), first (cells post) none⟩ := by
  have hsegment : Segment m none (cells pre ++ (x.address, x.item) :: cells post) none := by
    have hall := hforest.1
    rwa [cells_append] at hall
  obtain ⟨-, hcell, -⟩ := segment_append.mp hsegment
  exact ⟨hsegment, hcell⟩

/-- The cells that an unlinked child leaves mapped are those that were mapped. -/
theorem isSome_unlink (p n : Option ℕ) (b : ℕ) : (unlink p n m b).isSome = (m b).isSome := by
  unfold unlink
  cases p <;> cases n <;> simp only [setNext, setPrev, isSome_modify_eq]

/-- The steps of `cJSON_DetachItemFromArray`: the two neighbours, then the owner, then the
child. -/
theorem detachItemFromArray_eq {m₂ : Heap} (hparent : Parent m a item (pre ++ x :: post))
    (hpass : passHead a x.address item.child (first (cells post) none)
      (unlink (last none (cells pre)) (first (cells post) none) m) = some m₂)
    (hx : (m₂ x.address).isSome = true) :
    detachItemFromArray a pre.length m = some (some x.address,
      m₂.modify x.address fun d => { d with prev := none, next := none }) := by
  obtain ⟨prev, next, hcell⟩ := hparent.cell
  obtain ⟨hsegment, hxcell⟩ := segment_child hparent.forest
  have hunlink := writeSiblings_eq (m := m) (p := last none (cells pre))
    (n := first (cells post) none) (fun z hz => hsegment.isSome (by
      rw [keys_append]
      exact List.mem_append_left _ (last_eq_some hz)))
    (fun z hz => hsegment.isSome (by
      rw [keys_append]
      exact List.mem_append_right _ (List.mem_cons_of_mem _ (first_eq_some hz))))
  have hat : itemAt m item.child pre.length = some (some x.address) := by
    have hlength : (cells pre).length = pre.length := List.length_map _
    rw [hparent.child, cells_append, ← hlength]
    exact itemAt_eq hsegment
  unfold detachItemFromArray
  rw [hcell]
  dsimp only [Option.bind_eq_bind, Option.bind_some]
  rw [hat]
  dsimp only [Option.bind_some]
  rw [hxcell]
  dsimp only [Option.bind_some]
  obtain ⟨m₀, hfront, hback⟩ := Option.bind_eq_some_iff.mp hunlink
  rw [hfront]
  dsimp only [Option.bind_some]
  rw [hback]
  dsimp only [Option.bind_some]
  rw [hpass]
  dsimp only [Option.bind_some]
  rw [write_eq hx]
  rfl

/-- `cJSON_DetachItemFromArray` takes a child out, and it stands alone then: its neighbours
are linked to each other and its own links are cleared. -/
theorem detachItemFromArray_spec (hparent : Parent m a item (pre ++ x :: post))
    (hnodup : (a :: ownedAll (pre ++ x :: post)).Nodup) :
    ∃ m', detachItemFromArray a pre.length m = some (some x.address, m') ∧
      Forest m' (pre ++ post) ∧ Forest m' [x] ∧ Refilled m m' a (headed item (pre ++ post)) ∧
      (∀ b, b ≠ a → b ∉ keys (cells (pre ++ x :: post)) → m' b = m b) ∧
      ∀ b, (m' b).isSome = (m b).isSome := by
  obtain ⟨hself, hchildren⟩ := List.nodup_cons.mp hnodup
  obtain ⟨hsegment, hxcell⟩ := segment_child hparent.forest
  have hxout := address_not_beside hchildren
  have hakey : ∀ {b}, b ∈ keys (cells (pre ++ x :: post)) → b ≠ a := by
    rintro b hb rfl
    exact hself (keys_subset hb)
  have hax : a ≠ x.address := (hakey address_mem_keys).symm
  have haout : a ∉ keys (cells pre ++ cells post) := fun hmem => hakey (keys_beside hmem) rfl
  obtain ⟨m₂, hpass, hrefilled, hsame₂, hsome₂⟩ :=
    passHead_eq hparent hnodup (unlink_other (m := m) haout)
  have hx₂ : m₂ x.address =
      some ⟨x.item, last none (cells pre), first (cells post) none⟩ :=
    (hsame₂ _ hax.symm).trans ((unlink_other hxout).trans hxcell)
  have hfar : ∀ b, b ≠ a → b ∉ keys (cells (pre ++ x :: post)) →
      m₂.modify x.address (fun d => { d with prev := none, next := none }) b = m b := by
    intro b hba hb
    have hbx : b ≠ x.address := by
      rintro rfl
      exact hb address_mem_keys
    rw [modify_other hbx, hsame₂ b hba]
    exact unlink_other fun hmem => hb (keys_beside hmem)
  have hbelow : ∀ b ∈ belowAll (pre ++ x :: post),
      m₂.modify x.address (fun d => { d with prev := none, next := none }) b = m b := by
    intro b hb
    have hall : (a :: (ownedAll (pre ++ x :: post) ++ [])).Nodup := by rwa [List.append_nil]
    obtain ⟨hba, hout, -⟩ := below_apart hall hb
    exact hfar b hba hout
  have hholds := holdsAll_iff.mp hparent.forest.2
  refine ⟨_, detachItemFromArray_eq hparent hpass (by rw [hx₂]; rfl), ⟨?_, ?_⟩, ?_, ?_, hfar,
    fun b => ?_⟩
  · rw [cells_append]
    have hkeys : (keys (cells pre ++ (x.address, x.item) :: cells post)).Nodup := by
      have hall := nodup_keys hchildren
      rwa [cells_append] at hall
    refine (hsegment.unlink hkeys).congr fun b hb => ?_
    have hbx : b ≠ x.address := by
      rintro rfl
      exact hxout hb
    rw [modify_other hbx]
    exact hsame₂ b (hakey (keys_beside hb))
  · have hothers : HoldsAll m (pre ++ post) := by
      refine holdsAll_iff.mpr fun node hnode => hholds node ?_
      rcases List.mem_append.mp hnode with hnode | hnode
      · exact List.mem_append_left _ hnode
      · exact List.mem_append_right _ (List.mem_cons_of_mem _ hnode)
    exact hothers.congr_below fun b hb => hbelow b (below_beside hb)
  · refine forest_singleton.mpr ⟨modify_same hx₂, ?_⟩
    have hx := hholds x (List.mem_append_right _ List.mem_cons_self)
    exact hx.congr fun b hb => hbelow b (below_child hb)
  · intro cell h
    rw [modify_other hax]
    exact hrefilled cell h
  · rw [isSome_modify_eq, hsome₂, isSome_unlink]

end Detach

end IperfRuntime.JsonItems
