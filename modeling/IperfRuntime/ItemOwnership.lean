import IperfRuntime.JsonItems

/-!
# Who owns the items

Runs of the functions that build, take apart and free items, on one side in memory and on
the other on trees: each item belongs to one tree, a reference borrows what another tree
owns. No run follows a dangling pointer or frees twice, and what is in memory is what the
trees own. Failing allocations are left out, and so are the functions for items that no
caller reaches.
-/

namespace IperfRuntime.ItemOwnership

open JsonTree LinkedCells JsonItems

/-- A tree with a place for an item. -/
inductive Context where
  | top
  | under (address : ℕ) (item : Item) (pre : List Node) (inner : Context) (post : List Node)

/-- The tree with an item in that place. -/
def Context.fill : Context → Node → Node
  | .top, node => node
  | .under address item pre inner post, node => ⟨address, item, pre ++ inner.fill node :: post⟩

/-- A place in a place. -/
def Context.comp : Context → Context → Context
  | .top, D => D
  | .under address item pre inner post, D => .under address item pre (inner.comp D) post

/-- The addresses around the place. -/
def Context.owned : Context → List ℕ
  | .top => []
  | .under address _ pre inner post => address :: (ownedAll pre ++ inner.owned ++ ownedAll post)

/-- An item under a name. -/
def named (name : Option String) (node : Node) : Node :=
  match name with
  | none => node
  | some string => ⟨node.address, { node.item with string := some string }, node.children⟩

/-- What the program does with items. -/
inductive Operation where
  /-- One of the `cJSON_Create` functions. -/
  | create (address : ℕ) (value : Value)
  /-- `create_reference`. -/
  | createReference (item ref : ℕ)
  /-- `cJSON_AddItemToArray`. -/
  | addItemToArray (array item : ℕ)
  /-- `cJSON_AddItemToObject`. -/
  | addItemToObject (object : ℕ) (string : String) (item : ℕ)
  /-- `cJSON_DetachItemFromArray`. -/
  | detachItemFromArray (array which : ℕ)
  /-- `cJSON_DetachItemFromObject`. -/
  | detachItemFromObject (object : ℕ) (string : String)
  /-- `cJSON_Delete`. -/
  | delete (item : ℕ)

/-- An operation in memory. -/
def perform (fuel : ℕ) : Operation → Heap → Option Heap
  | .create address value, m => newItem address { value := value } m
  | .createReference item ref, m => createReference item ref m
  | .addItemToArray array item, m => addItemToArray fuel array item m
  | .addItemToObject object string item, m => addItemToObject fuel object string item m
  | .detachItemFromArray array which, m => (detachItemFromArray array which m).map Prod.snd
  | .detachItemFromObject object string, m =>
      (detachItemFromObject fuel object string m).map Prod.snd
  | .delete item, m => delete fuel (some item) m

/-- An operation on the trees that the program holds, when it is used as it may be: items are
added to an item of another tree that owns its children, detachments may find nothing, and whole
trees are deleted. -/
inductive Use : List Node → Operation → List Node → Prop
  | create {roots : List Node} {address : ℕ} (value : Value) (hnew : address ∉ ownedAll roots) :
    Use roots (.create address value) (⟨address, { value := value }, []⟩ :: roots)
  | createReference {roots rest : List Node} {C : Context} {node : Node} {ref : ℕ}
    (hat : roots.Perm (C.fill node :: rest)) (hnew : ref ∉ ownedAll roots) :
    Use roots (.createReference node.address ref)
      (⟨ref, { node.item with string := none, reference := true }, []⟩ :: roots)
  | addItemToArray {roots rest children : List Node} {C : Context} {array : ℕ} {item : Item}
    {x : Node} (hat : roots.Perm (C.fill ⟨array, item, children⟩ :: x :: rest))
    (hown : item.reference = false) :
    Use roots (.addItemToArray array x.address)
      (C.fill ⟨array, headed item (children ++ [x]), children ++ [x]⟩ :: rest)
  | addItemToObject {roots rest children : List Node} {C : Context} {object : ℕ} {item : Item}
    {x : Node} (string : String) (hat : roots.Perm (C.fill ⟨object, item, children⟩ :: x :: rest))
    (hown : item.reference = false) :
    Use roots (.addItemToObject object string x.address)
      (C.fill ⟨object, headed item (children ++ [named (some string) x]),
        children ++ [named (some string) x]⟩ :: rest)
  | detachItemFromArray {roots rest pre post : List Node} {C : Context} {array : ℕ} {item : Item}
    {x : Node} (hat : roots.Perm (C.fill ⟨array, item, pre ++ x :: post⟩ :: rest))
    (hown : item.reference = false) :
    Use roots (.detachItemFromArray array pre.length)
      (C.fill ⟨array, headed item (pre ++ post), pre ++ post⟩ :: x :: rest)
  | detachItemFromObject {roots rest pre post : List Node} {C : Context} {object : ℕ}
    {item : Item} {x : Node} {string : String}
    (hat : roots.Perm (C.fill ⟨object, item, pre ++ x :: post⟩ :: rest))
    (hown : item.reference = false)
    (hbefore : ∀ y ∈ pre, y.item.string.any (sameKey · string) = false)
    (hname : x.item.string.any (sameKey · string) = true) :
    Use roots (.detachItemFromObject object string)
      (C.fill ⟨object, headed item (pre ++ post), pre ++ post⟩ :: x :: rest)
  /-- There is no child at the position. -/
  | detachBeyond {roots rest children : List Node} {C : Context} {array which : ℕ} {item : Item}
    (hat : roots.Perm (C.fill ⟨array, item, children⟩ :: rest)) (hown : item.reference = false)
    (hbeyond : children.length ≤ which) :
    Use roots (.detachItemFromArray array which) roots
  /-- No child has the name. -/
  | detachMissing {roots rest children : List Node} {C : Context} {object : ℕ} {item : Item}
    {string : String} (hat : roots.Perm (C.fill ⟨object, item, children⟩ :: rest))
    (hown : item.reference = false)
    (hmissing : ∀ y ∈ children, y.item.string.any (sameKey · string) = false) :
    Use roots (.detachItemFromObject object string) roots
  | delete {roots rest : List Node} {x : Node} (hat : roots.Perm (x :: rest)) :
    Use roots (.delete x.address) rest

/-- Several operations in memory. -/
def performAll (fuel : ℕ) : List Operation → Heap → Option Heap
  | [], m => some m
  | op :: ops, m => (perform fuel op m).bind (performAll fuel ops)

/-- Several operations on trees. -/
inductive Uses : List Node → List Operation → List Node → Prop
  | nil (roots : List Node) : Uses roots [] roots
  | cons {roots roots' roots'' : List Node} {op : Operation} {ops : List Operation}
    (h : Use roots op roots') (hs : Uses roots' ops roots'') : Uses roots (op :: ops) roots''

/-- The memory holds the trees and nothing else. -/
structure Represents (m : Heap) (roots : List Node) : Prop where
  forest : ∀ root ∈ roots, Forest m [root]
  nodup : (ownedAll roots).Nodup
  allocated : ∀ b, (m b).isSome = true ↔ b ∈ ownedAll roots

variable {m m' : Heap} {a b : ℕ} {item : Item} {C : Context} {node x : Node}
  {roots roots' rest children pre post : List Node}

/-- Filling a context with a node at the same address gives a tree at the same address. -/
theorem address_fill {node' : Node} (C : Context) (h : node'.address = node.address) :
    (C.fill node').address = (C.fill node).address := by
  cases C with
  | top => exact h
  | under address item pre inner post => rfl

/-- Filling a composed context fills the inner one first. -/
theorem fill_comp (C D : Context) (node : Node) : (C.comp D).fill node = C.fill (D.fill node) := by
  induction C with
  | top => rfl
  | under address item pre inner post ih => rw [Context.comp, Context.fill, ih, Context.fill]

/-- A filled context owns its own blocks and those of the node. -/
theorem owned_fill (C : Context) (node : Node) :
    (C.fill node).owned.Perm (C.owned ++ node.owned) := by
  induction C with
  | top => exact List.Perm.refl _
  | under address item pre inner post ih =>
    rw [Context.fill, Node.owned, Context.owned, ownedAll_append, ownedAll, List.cons_append]
    refine List.Perm.cons _ ?_
    rw [List.append_assoc, List.append_assoc]
    refine List.Perm.append_left _ ?_
    exact (List.Perm.append_right _ ih).trans (by
      rw [List.append_assoc]
      exact List.Perm.append_left _ List.perm_append_comm)

/-- The cell of a filled tree, when the item in the place is refilled. -/
theorem refilled_fill {node' : Node} (hout : ∀ b ∈ C.owned, m' b = m b)
    (hcell : Refilled m m' node.address node'.item) {cell : Cell Item}
    (h : m (C.fill node).address = some cell) (hdata : cell.data = (C.fill node).item) :
    m' (C.fill node).address = some { cell with data := (C.fill node').item } := by
  cases C with
  | top => exact hcell cell h
  | under address item pre inner post =>
    have hsame : m' address = m address := hout address List.mem_cons_self
    have hitem : cell.data = item := hdata
    have haddress : m address = some cell := h
    have hkept : ({ cell with data := item } : Cell Item) = cell := by
      rw [← hitem]
    change m' address = some { cell with data := item }
    rw [hkept, hsame, haddress]

/-- What is in memory around an item stays when the item is replaced, as long as its block is
the same and nothing else of the tree is written. -/
theorem holds_replace {node' : Node} (haddress : node'.address = node.address)
    (h : (C.fill node).Holds m) (hout : ∀ b ∈ C.owned, m' b = m b)
    (hcell : Refilled m m' node.address node'.item) (hnode : node'.Holds m') :
    (C.fill node').Holds m' := by
  induction C with
  | top => exact hnode
  | under address item pre inner post ih =>
    obtain ⟨hheaded, hsegment, hall⟩ := (holds_eq _).mp h
    have hheaded : Headed item (pre ++ inner.fill node :: post) := hheaded
    have hsegment : Segment m none (cells (pre ++ inner.fill node :: post)) none := hsegment
    have hall : HoldsAll m (pre ++ inner.fill node :: post) := hall
    have hpre : ∀ b ∈ ownedAll pre, m' b = m b := fun b hb => hout b (List.mem_cons_of_mem _
      (List.mem_append_left _ (List.mem_append_left _ hb)))
    have hpost : ∀ b ∈ ownedAll post, m' b = m b := fun b hb => hout b (List.mem_cons_of_mem _
      (List.mem_append_right _ hb))
    have hinner : ∀ b ∈ inner.owned, m' b = m b := fun b hb => hout b (List.mem_cons_of_mem _
      (List.mem_append_left _ (List.mem_append_right _ hb)))
    have hsame := @address_fill node node' inner haddress
    have hallIff := holdsAll_iff.mp hall
    refine (holds_eq _).mpr ⟨?_, ?_, ?_⟩
    · change Headed item (pre ++ inner.fill node' :: post)
      have hfirst : first (cells (pre ++ inner.fill node' :: post)) none =
          first (cells (pre ++ inner.fill node :: post)) none := by
        rw [cells_append, cells_append]
        unfold cells
        rw [List.map_cons, List.map_cons, first_append_cons, first_append_cons, hsame]
      unfold Headed at hheaded ⊢
      rw [hfirst]
      split
      · rename_i href
        rw [if_pos href] at hheaded
        exact absurd hheaded (by simp)
      · rename_i hown
        rwa [if_neg hown] at hheaded
    · change Segment m' none (cells (pre ++ inner.fill node' :: post)) none
      rw [cells_append] at hsegment ⊢
      have hsegment : Segment m none (cells pre ++
          ((inner.fill node).address, (inner.fill node).item) :: cells post) none := hsegment
      refine segment_replace hsegment hsame (fun b hb => hpre b (keys_subset hb))
        (fun b hb => hpost b (keys_subset hb)) fun cell hself => ?_
      obtain ⟨-, hfound, -⟩ := segment_append.mp hsegment
      rw [hself] at hfound
      have hdata : cell.data = (inner.fill node).item := by rw [Option.some.inj hfound]
      exact refilled_fill hinner hcell hself hdata
    · change HoldsAll m' (pre ++ inner.fill node' :: post)
      refine holdsAll_iff.mpr fun other hother => ?_
      rcases List.mem_append.mp hother with hother | hother
      · have hheld := hallIff other (List.mem_append_left _ hother)
        refine hheld.congr fun b hb => hpre b ?_
        rw [ownedAll_eq]
        refine List.mem_flatMap.mpr ⟨other, hother, ?_⟩
        rw [owned_eq]
        exact List.mem_cons_of_mem _ hb
      · rcases List.mem_cons.mp hother with rfl | hother
        · exact ih (hallIff _ (List.mem_append_right _ List.mem_cons_self)) hinner
        · have hheld := hallIff other (List.mem_append_right _ (List.mem_cons_of_mem _ hother))
          refine hheld.congr fun b hb => hpost b ?_
          rw [ownedAll_eq]
          refine List.mem_flatMap.mpr ⟨other, hother, ?_⟩
          rw [owned_eq]
          exact List.mem_cons_of_mem _ hb

/-- A whole tree whose item in some place is replaced. -/
theorem forest_replace {node' : Node} (haddress : node'.address = node.address)
    (h : Forest m [C.fill node]) (hout : ∀ b ∈ C.owned, m' b = m b)
    (hcell : Refilled m m' node.address node'.item) (hnode : node'.Holds m') :
    Forest m' [C.fill node'] := by
  obtain ⟨hroot, hholds⟩ := forest_singleton.mp h
  refine forest_singleton.mpr ⟨?_, holds_replace haddress hholds hout hcell hnode⟩
  have hkept := refilled_fill hout hcell hroot rfl
  rw [@address_fill node node' C haddress]
  exact hkept

/-- The item in the place, as it is in memory. -/
theorem held_in_place (hroot : ∃ prev next, m (C.fill node).address =
      some ⟨(C.fill node).item, prev, next⟩) (h : (C.fill node).Holds m) :
    (∃ prev next, m node.address = some ⟨node.item, prev, next⟩) ∧ node.Holds m := by
  induction C with
  | top => exact ⟨hroot, h⟩
  | under address item pre inner post ih =>
    obtain ⟨-, hsegment, hall⟩ := (holds_eq _).mp h
    have hsegment : Segment m none (cells (pre ++ inner.fill node :: post)) none := hsegment
    have hall : HoldsAll m (pre ++ inner.fill node :: post) := hall
    rw [cells_append] at hsegment
    obtain ⟨-, hcell, -⟩ := segment_append.mp hsegment
    exact ih ⟨_, _, hcell⟩ (holdsAll_iff.mp hall _ (List.mem_append_right _ List.mem_cons_self))

/-- A node in a tree that is held is the parent of its children, unless it is a reference. -/
theorem parent_in_place (h : Forest m [C.fill ⟨a, item, children⟩])
    (hown : item.reference = false) : Parent m a item children := by
  obtain ⟨hroot, hholds⟩ := forest_singleton.mp h
  obtain ⟨hcell, hheld⟩ := held_in_place ⟨_, _, hroot⟩ hholds
  obtain ⟨hheaded, hforest⟩ := (holds_eq _).mp hheld
  have hheaded : Headed item children := hheaded
  unfold Headed at hheaded
  rw [hown, if_neg Bool.false_ne_true] at hheaded
  exact ⟨hown, hcell, hheaded, hforest⟩

/-- The order of the roots does not change what they own. -/
theorem perm_ownedAll_of_perm (h : roots.Perm roots') :
    (ownedAll roots).Perm (ownedAll roots') := by
  rw [ownedAll_eq, ownedAll_eq]
  exact h.flatMap_right _

/-- It does not change what the memory represents either. -/
theorem Represents.perm (h : Represents m roots) (hperm : roots.Perm roots') :
    Represents m roots' where
  forest := fun root hroot => h.forest root (hperm.mem_iff.mpr hroot)
  nodup := (perm_ownedAll_of_perm hperm).nodup_iff.mp h.nodup
  allocated := fun b => (h.allocated b).trans (perm_ownedAll_of_perm hperm).mem_iff

/-- The addresses of a world with a tree in front, taken apart. -/
theorem owned_front (C : Context) (a : ℕ) (item : Item) (children rest : List Node) :
    (ownedAll (C.fill ⟨a, item, children⟩ :: rest)).Perm
      (a :: (C.owned ++ (ownedAll children ++ ownedAll rest))) := by
  have hnode : (Node.mk a item children).owned = a :: ownedAll children := by rw [Node.owned]
  rw [ownedAll]
  refine (List.Perm.append_right _ (owned_fill C ⟨a, item, children⟩)).trans ?_
  rw [hnode, List.append_assoc, List.cons_append]
  exact List.perm_middle

/-- A tree that no write has touched. -/
theorem forest_untouched (h : Represents m roots) {root : Node} (hroot : root ∈ roots)
    (hsame : ∀ b ∈ root.owned, m' b = m b) : Forest m' [root] := by
  refine (h.forest root hroot).congr fun b hb => hsame b ?_
  rwa [ownedAll, ownedAll, List.append_nil] at hb

/-- A root's blocks are among all of them. -/
theorem owned_subset {root : Node} (hroot : root ∈ roots) : root.owned ⊆ ownedAll roots := by
  intro b hb
  rw [ownedAll_eq]
  exact List.mem_flatMap.mpr ⟨root, hroot, hb⟩

/-- A new item. -/
theorem Represents.created (h : Represents m roots) {item : Item} (hnew : a ∉ ownedAll roots)
    (hheaded : Headed item []) :
    ∃ m', newItem a item m = some m' ∧ Represents m' (⟨a, item, []⟩ :: roots) := by
  have hfree : ¬ (m a).isSome = true := fun hsome => hnew ((h.allocated a).mp hsome)
  have howned : ownedAll (⟨a, item, []⟩ :: roots) = a :: ownedAll roots := by
    rw [ownedAll, Node.owned, ownedAll]
    rfl
  refine ⟨Function.update m a (some ⟨item, none, none⟩), if_neg hfree, ?_, ?_, ?_⟩
  · intro root hroot
    rcases List.mem_cons.mp hroot with rfl | hroot
    · refine forest_singleton.mpr ⟨Function.update_self _ _ _, (holds_eq _).mpr ⟨hheaded, ?_⟩⟩
      exact ⟨trivial, trivial⟩
    · refine forest_untouched h hroot fun b hb => Function.update_of_ne (fun heq => ?_) _ _
      rw [heq] at hb
      exact hnew (owned_subset hroot hb)
  · rw [howned]
    exact List.nodup_cons.mpr ⟨hnew, h.nodup⟩
  · intro b
    rw [howned, List.mem_cons]
    by_cases hb : b = a
    · rw [hb, Function.update_self]
      exact ⟨fun _ => Or.inl rfl, fun _ => rfl⟩
    · rw [Function.update_of_ne hb, h.allocated b]
      exact ⟨Or.inr, fun h => h.resolve_left hb⟩

/-- An item that moves into another tree takes its addresses along. -/
theorem owned_moved (C : Context) (a : ℕ) (item item' : Item) (children : List Node) (x : Node)
    (rest : List Node) :
    (ownedAll (C.fill ⟨a, item', children ++ [x]⟩ :: rest)).Perm
      (ownedAll (C.fill ⟨a, item, children⟩ :: x :: rest)) := by
  refine (owned_front C a item' (children ++ [x]) rest).trans (List.Perm.trans ?_
    (owned_front C a item children (x :: rest)).symm)
  rw [ownedAll_append, ownedAll, ownedAll, ownedAll, List.append_nil, List.append_assoc]

/-- An item that is put into another tree belongs to it from then on, as its last child,
whether the tree had children or not. -/
theorem Represents.added {fuel : ℕ} (h : Represents m (C.fill ⟨a, item, children⟩ :: x :: rest))
    (hown : item.reference = false) (hfuel : children.length ≤ fuel) :
    ∃ m', addItemToArray fuel a x.address m = some m' ∧
      Represents m' (C.fill ⟨a, headed item (children ++ [x]), children ++ [x]⟩ :: rest) := by
  have hparent := parent_in_place (h.forest _ List.mem_cons_self) hown
  have hx := h.forest x (List.mem_cons_of_mem _ List.mem_cons_self)
  have hperm := owned_front C a item children (x :: rest)
  have hapart := hperm.nodup_iff.mp h.nodup
  rw [ownedAll] at hapart
  have hsiblings : (a :: (ownedAll children ++ x.owned)).Nodup := by
    rw [List.nodup_cons] at hapart ⊢
    refine ⟨fun hmem => hapart.1 ?_, ?_⟩
    · rcases List.mem_append.mp hmem with hmem | hmem
      · exact List.mem_append_right _ (List.mem_append_left _ hmem)
      · exact List.mem_append_right _ (List.mem_append_right _ (List.mem_append_left _ hmem))
    · have hright := (List.nodup_append.mp hapart.2).2.1
      rw [← List.append_assoc] at hright
      exact (List.nodup_append.mp hright).1
  obtain ⟨m', hadd, hforest, hrefilled, hother, hsome⟩ :=
    addItemToArray_spec hparent hx hsiblings hfuel
  have hsame : ∀ b, b ∈ C.owned ∨ b ∈ ownedAll rest → m' b = m b := by
    intro b hb
    obtain ⟨hself, hrest⟩ := List.nodup_cons.mp hapart
    obtain ⟨-, hrest, hcross⟩ := List.nodup_append.mp hrest
    obtain ⟨-, hxrest, hcross'⟩ := List.nodup_append.mp hrest
    obtain ⟨-, -, hcross''⟩ := List.nodup_append.mp hxrest
    have hxowned := address_mem_owned x
    refine hother b ?_ (fun hkey => ?_) ?_
    · rintro rfl
      rcases hb with hb | hb
      · exact hself (List.mem_append_left _ hb)
      · exact hself (List.mem_append_right _ (List.mem_append_right _ (List.mem_append_right _ hb)))
    · have hchild := keys_subset hkey
      rcases hb with hb | hb
      · exact hcross _ hb _ (List.mem_append_left _ hchild) rfl
      · exact hcross' _ hchild _ (List.mem_append_right _ hb) rfl
    · rintro rfl
      rcases hb with hb | hb
      · exact hcross _ hb _ (List.mem_append_right _ (List.mem_append_left _ hxowned)) rfl
      · exact hcross'' _ hxowned _ hb rfl
  have hnode : (Node.mk a (headed item (children ++ [x])) (children ++ [x])).Holds m' := by
    refine (holds_eq _).mpr ⟨?_, hforest⟩
    change Headed (headed item (children ++ [x])) (children ++ [x])
    unfold Headed
    rw [if_neg (by rw [headed, hown]; exact Bool.false_ne_true)]
    rfl
  have hperm' := owned_moved C a item (headed item (children ++ [x])) children x rest
  refine ⟨m', hadd, ?_, hperm'.nodup_iff.mpr h.nodup, fun b => ?_⟩
  · intro root hroot
    rcases List.mem_cons.mp hroot with rfl | hroot
    · refine @forest_replace m m' C ⟨a, item, children⟩ _ rfl (h.forest _ List.mem_cons_self)
        (fun b hb => hsame b (Or.inl hb)) hrefilled hnode
    · refine forest_untouched h (List.mem_cons_of_mem _ (List.mem_cons_of_mem _ hroot))
        fun b hb => hsame b (Or.inr (owned_subset hroot hb))
  · rw [hsome b, h.allocated b, hperm'.mem_iff]

/-- Naming a node gives it no further block. -/
theorem owned_named (string : String) (x : Node) : (named (some string) x).owned = x.owned := by
  rw [owned_eq x]
  unfold named
  rw [Node.owned]

/-- A tree that gets a name keeps all that it owns; the string of the name has memory of its
own. -/
theorem Represents.renamed {root : Node} (h : Represents m (root :: x :: rest)) (string : String) :
    ∃ m', writeItem x.address (fun i => { i with string := some string }) m = some m' ∧
      Represents m' (root :: named (some string) x :: rest) := by
  have hx := h.forest x (List.mem_cons_of_mem _ List.mem_cons_self)
  obtain ⟨hcell, hholds⟩ := forest_singleton.mp hx
  have howned := owned_named string x
  have hall : ownedAll (root :: named (some string) x :: rest) = ownedAll (root :: x :: rest) := by
    rw [ownedAll, ownedAll, ownedAll, ownedAll, howned]
  have hnodup := h.nodup
  rw [ownedAll, ownedAll] at hnodup
  obtain ⟨-, hxrest, hcross⟩ := List.nodup_append.mp hnodup
  obtain ⟨hxnodup, -, hcross'⟩ := List.nodup_append.mp hxrest
  have hself := address_mem_owned x
  refine ⟨_, write_eq (by rw [hcell]; rfl), ?_, by rw [hall]; exact h.nodup, fun b => ?_⟩
  · intro other hother
    rcases List.mem_cons.mp hother with rfl | hother
    · refine forest_untouched h List.mem_cons_self fun b hb => modify_other ?_
      rintro rfl
      exact hcross _ hb _ (List.mem_append_left _ hself) rfl
    rcases List.mem_cons.mp hother with rfl | hother
    · refine forest_singleton.mpr ⟨modify_same hcell, (holds_eq _).mpr ?_⟩
      have hbelow : x.Holds (m.modify x.address fun c =>
          { c with data := { c.data with string := some string } }) := by
        refine hholds.congr fun b hb => modify_other ?_
        rintro rfl
        rw [owned_eq] at hxnodup
        exact (List.nodup_cons.mp hxnodup).1 hb
      obtain ⟨hheaded, hforest⟩ := (holds_eq x).mp hbelow
      exact ⟨hheaded, hforest⟩
    · refine forest_untouched h (List.mem_cons_of_mem _ (List.mem_cons_of_mem _ hother))
        fun b hb => modify_other ?_
      rintro rfl
      exact hcross' _ hself _ (owned_subset hother hb) rfl
  · rw [isSome_modify_eq, hall]
    exact h.allocated b

/-- Taking a child out keeps the addresses. -/
theorem owned_detached (C : Context) (a : ℕ) (item item' : Item) (pre post : List Node) (x : Node)
    (rest : List Node) :
    (ownedAll (C.fill ⟨a, item', pre ++ post⟩ :: x :: rest)).Perm
      (ownedAll (C.fill ⟨a, item, pre ++ x :: post⟩ :: rest)) := by
  refine (owned_front C a item' (pre ++ post) (x :: rest)).trans (List.Perm.trans ?_
    (owned_front C a item (pre ++ x :: post) rest).symm)
  refine List.Perm.cons _ (List.Perm.append_left _ ?_)
  rw [ownedAll_append, ownedAll_append, ownedAll, ownedAll, List.append_assoc, List.append_assoc,
    List.append_assoc]
  refine List.Perm.append_left _ ?_
  rw [← List.append_assoc, ← List.append_assoc]
  exact List.Perm.append_right _ List.perm_append_comm

/-- A child that is taken out of its tree stands alone with all it owns, and its siblings
close up. -/
theorem Represents.detached (h : Represents m (C.fill ⟨a, item, pre ++ x :: post⟩ :: rest))
    (hown : item.reference = false) :
    ∃ m', detachItemFromArray a pre.length m = some (some x.address, m') ∧
      Represents m' (C.fill ⟨a, headed item (pre ++ post), pre ++ post⟩ :: x :: rest) := by
  have hparent := parent_in_place (h.forest _ List.mem_cons_self) hown
  have hperm := owned_front C a item (pre ++ x :: post) rest
  have hapart := hperm.nodup_iff.mp h.nodup
  obtain ⟨hself, hrest⟩ := List.nodup_cons.mp hapart
  obtain ⟨-, hrest, hcross⟩ := List.nodup_append.mp hrest
  obtain ⟨hchildren, -, hcross'⟩ := List.nodup_append.mp hrest
  have hsiblings : (a :: ownedAll (pre ++ x :: post)).Nodup := by
    refine List.nodup_cons.mpr ⟨fun hmem => hself ?_, hchildren⟩
    exact List.mem_append_right _ (List.mem_append_left _ hmem)
  obtain ⟨m', hdetach, hforest, hx, hrefilled, hother, hsome⟩ :=
    detachItemFromArray_spec hparent hsiblings
  have hsame : ∀ b, b ∈ C.owned ∨ b ∈ ownedAll rest → m' b = m b := by
    intro b hb
    refine hother b ?_ fun hkey => ?_
    · rintro rfl
      rcases hb with hb | hb
      · exact hself (List.mem_append_left _ hb)
      · exact hself (List.mem_append_right _ (List.mem_append_right _ hb))
    · have hchild := keys_subset hkey
      rcases hb with hb | hb
      · exact hcross _ hb _ (List.mem_append_left _ hchild) rfl
      · exact hcross' _ hchild _ hb rfl
  have hnode : (Node.mk a (headed item (pre ++ post)) (pre ++ post)).Holds m' := by
    refine (holds_eq _).mpr ⟨?_, hforest⟩
    change Headed (headed item (pre ++ post)) (pre ++ post)
    unfold Headed
    rw [if_neg (by rw [headed, hown]; exact Bool.false_ne_true)]
    rfl
  have hperm' := owned_detached C a item (headed item (pre ++ post)) pre post x rest
  refine ⟨m', hdetach, ?_, hperm'.nodup_iff.mpr h.nodup, fun b => ?_⟩
  · intro root hroot
    rcases List.mem_cons.mp hroot with rfl | hroot
    · exact @forest_replace m m' C ⟨a, item, pre ++ x :: post⟩ _ rfl
        (h.forest _ List.mem_cons_self) (fun b hb => hsame b (Or.inl hb)) hrefilled hnode
    rcases List.mem_cons.mp hroot with rfl | hroot
    · exact hx
    · exact forest_untouched h (List.mem_cons_of_mem _ hroot)
        fun b hb => hsame b (Or.inr (owned_subset hroot hb))
  · rw [hsome b, h.allocated b, hperm'.mem_iff]

/-- A tree that is freed. -/
theorem Represents.deleted {fuel : ℕ} (h : Represents m (x :: rest))
    (hfuel : (ownedAll (x :: rest)).length ≤ fuel) :
    ∃ m', delete fuel (some x.address) m = some m' ∧ Represents m' rest := by
  obtain ⟨hsegment, hall⟩ := h.forest x List.mem_cons_self
  have hnodup := h.nodup
  have howned : ownedAll [x] = x.owned := by rw [ownedAll, ownedAll, List.append_nil]
  rw [ownedAll] at hnodup hfuel
  rw [List.length_append] at hfuel
  obtain ⟨hx, hrest, hcross⟩ := List.nodup_append.mp hnodup
  have hdelete : delete fuel (some x.address) m =
      some fun b => if b ∈ ownedAll [x] then none else m b :=
    delete_eq (by rw [howned]; omega) hsegment hall (by rw [howned]; exact hx)
  rw [howned] at hdelete
  refine ⟨_, hdelete, ?_, hrest, fun b => ?_⟩
  · intro root hroot
    refine forest_untouched h (List.mem_cons_of_mem _ hroot) fun b hb => if_neg fun hmem => ?_
    exact hcross _ hmem _ (owned_subset hroot hb) rfl
  · by_cases hb : b ∈ x.owned
    · rw [if_pos hb]
      exact ⟨fun hsome => absurd hsome Bool.false_ne_true,
        fun hmem => absurd rfl (hcross _ hb _ hmem)⟩
    · rw [if_neg hb, h.allocated b, ownedAll, List.mem_append]
      exact ⟨fun hmem => hmem.resolve_left hb, Or.inr⟩

/-- The search for a name ends at the first child that has it; names are compared without
regard to case. -/
theorem memberIndex_eq {string : String} {fuel i : ℕ} {prev : Option ℕ} {pre post : List Node}
    {x : Node} (h : Segment m prev (cells (pre ++ x :: post)) none) (hfuel : pre.length < fuel)
    (hbefore : ∀ y ∈ pre, y.item.string.any (sameKey · string) = false)
    (hname : x.item.string.any (sameKey · string) = true) :
    memberIndex m string fuel (first (cells (pre ++ x :: post)) none) i =
      some (some (i + pre.length)) := by
  induction pre generalizing prev fuel i with
  | nil =>
    obtain ⟨fuel, rfl⟩ : ∃ k, fuel = k + 1 := ⟨fuel - 1, by omega⟩
    obtain ⟨hcell, -⟩ := segment_cons.mp h
    have hcell : m x.address = some ⟨x.item, prev, first (cells post) none⟩ := hcell
    change memberIndex m string (fuel + 1) (some x.address) i = _
    rw [memberIndex, hcell]
    dsimp only [Option.bind_eq_bind, Option.bind_some]
    rw [if_pos hname]
    rfl
  | cons y pre ih =>
    obtain ⟨fuel, rfl⟩ : ∃ k, fuel = k + 1 := ⟨fuel - 1, by omega⟩
    obtain ⟨hcell, hrest⟩ := segment_cons.mp h
    have hcell : m y.address = some ⟨y.item, prev, first (cells (pre ++ x :: post)) none⟩ := hcell
    have hrest : Segment m (some y.address) (cells (pre ++ x :: post)) none := hrest
    rw [List.length_cons] at hfuel
    have hrec := @ih fuel (i + 1) _ hrest (by omega)
      fun z hz => hbefore z (List.mem_cons_of_mem _ hz)
    change memberIndex m string (fuel + 1) (some y.address) i = _
    rw [memberIndex, hcell]
    dsimp only [Option.bind_eq_bind, Option.bind_some]
    rw [if_neg (by rw [hbefore y List.mem_cons_self]; exact Bool.false_ne_true), hrec,
      List.length_cons]
    congr 2
    omega

/-- The search for a name that no child has comes to the end of the children. -/
theorem memberIndex_missing {string : String} {fuel i : ℕ} {prev : Option ℕ}
    (h : Segment m prev (cells children) none) (hfuel : children.length ≤ fuel)
    (hmissing : ∀ y ∈ children, y.item.string.any (sameKey · string) = false) :
    memberIndex m string fuel (first (cells children) none) i = some none := by
  induction children generalizing prev fuel i with
  | nil => cases fuel <;> rfl
  | cons y children ih =>
    rw [List.length_cons] at hfuel
    obtain ⟨fuel, rfl⟩ : ∃ k, fuel = k + 1 := ⟨fuel - 1, by omega⟩
    obtain ⟨hcell, hrest⟩ := segment_cons.mp h
    have hcell : m y.address = some ⟨y.item, prev, first (cells children) none⟩ := hcell
    change memberIndex m string (fuel + 1) (some y.address) i = _
    rw [memberIndex, hcell]
    dsimp only [Option.bind_eq_bind, Option.bind_some]
    rw [if_neg (by rw [hmissing y List.mem_cons_self]; exact Bool.false_ne_true)]
    exact ih hrest (by omega) fun z hz => hmissing z (List.mem_cons_of_mem _ hz)

/-- A position behind the children is the end of their list. -/
theorem itemAt_beyond {which : ℕ} {prev : Option ℕ} (h : Segment m prev (cells children) none)
    (hbeyond : children.length ≤ which) :
    itemAt m (first (cells children) none) which = some none := by
  induction children generalizing prev which with
  | nil => cases which <;> rfl
  | cons y children ih =>
    rw [List.length_cons] at hbeyond
    obtain ⟨which, rfl⟩ : ∃ k, which = k + 1 := ⟨which - 1, by omega⟩
    obtain ⟨hcell, hrest⟩ := segment_cons.mp h
    have hcell : m y.address = some ⟨y.item, prev, first (cells children) none⟩ := hcell
    change itemAt m (some y.address) (which + 1) = _
    rw [itemAt, hcell]
    exact ih hrest (by omega)

/-- There are at most as many items as addresses that they own. -/
theorem length_le_ownedAll (nodes : List Node) : nodes.length ≤ (ownedAll nodes).length := by
  have hlength := (perm_ownedAll nodes).length_eq
  rw [List.length_append, keys_cells, List.length_map] at hlength
  omega

/-- The children of an item are among what is owned. -/
theorem length_children_le (C : Context) (a : ℕ) (item : Item) (children rest : List Node) :
    children.length < (ownedAll (C.fill ⟨a, item, children⟩ :: rest)).length := by
  have hperm := (owned_front C a item children rest).length_eq
  have hle := length_le_ownedAll children
  rw [List.length_cons, List.length_append, List.length_append] at hperm
  omega

/-- A member that is taken out of its tree. -/
theorem Represents.detachedByName {fuel : ℕ} {string : String}
    (h : Represents m (C.fill ⟨a, item, pre ++ x :: post⟩ :: rest)) (hown : item.reference = false)
    (hbefore : ∀ y ∈ pre, y.item.string.any (sameKey · string) = false)
    (hname : x.item.string.any (sameKey · string) = true)
    (hfuel : (ownedAll (C.fill ⟨a, item, pre ++ x :: post⟩ :: rest)).length ≤ fuel) :
    ∃ m', detachItemFromObject fuel a string m = some (some x.address, m') ∧
      Represents m' (C.fill ⟨a, headed item (pre ++ post), pre ++ post⟩ :: x :: rest) := by
  have hlength := length_children_le C a item (pre ++ x :: post) rest
  obtain ⟨m', hdetach, hrepresents⟩ := h.detached hown
  have hparent := parent_in_place (h.forest _ List.mem_cons_self) hown
  obtain ⟨prev, next, hcell⟩ := hparent.cell
  have hindex : memberIndex m string fuel item.child 0 = some (some pre.length) := by
    rw [hparent.child, ← Nat.zero_add pre.length]
    refine memberIndex_eq hparent.forest.1 ?_ hbefore hname
    rw [List.length_append, List.length_cons] at hlength
    omega
  refine ⟨m', ?_, hrepresents⟩
  unfold detachItemFromObject
  rw [hcell]
  dsimp only [Option.bind_eq_bind, Option.bind_some]
  rw [hindex]
  exact hdetach

/-- A detachment at a position behind the children finds nothing and leaves the memory alone. -/
theorem Represents.nothingAt {which : ℕ} (h : Represents m (C.fill ⟨a, item, children⟩ :: rest))
    (hown : item.reference = false) (hbeyond : children.length ≤ which) :
    detachItemFromArray a which m = some (none, m) := by
  have hparent := parent_in_place (h.forest _ List.mem_cons_self) hown
  obtain ⟨prev, next, hcell⟩ := hparent.cell
  unfold detachItemFromArray
  rw [hcell]
  dsimp only [Option.bind_eq_bind, Option.bind_some]
  rw [hparent.child, itemAt_beyond hparent.forest.1 hbeyond]
  rfl

/-- So does one by a name that no child has. -/
theorem Represents.nothingNamed {fuel : ℕ} {string : String}
    (h : Represents m (C.fill ⟨a, item, children⟩ :: rest)) (hown : item.reference = false)
    (hmissing : ∀ y ∈ children, y.item.string.any (sameKey · string) = false)
    (hfuel : (ownedAll (C.fill ⟨a, item, children⟩ :: rest)).length ≤ fuel) :
    detachItemFromObject fuel a string m = some (none, m) := by
  have hlength := length_children_le C a item children rest
  have hparent := parent_in_place (h.forest _ List.mem_cons_self) hown
  obtain ⟨prev, next, hcell⟩ := hparent.cell
  unfold detachItemFromObject
  rw [hcell]
  dsimp only [Option.bind_eq_bind, Option.bind_some]
  rw [hparent.child, memberIndex_missing hparent.forest.1 (by omega) hmissing]
  rfl

/-- An operation that is used as it may be comes back, and leaves the memory to the trees that
the program holds then. -/
theorem Represents.step {fuel : ℕ} {op : Operation} (h : Represents m roots)
    (huse : Use roots op roots') (hfuel : (ownedAll roots).length ≤ fuel) :
    ∃ m', perform fuel op m = some m' ∧ Represents m' roots' := by
  cases huse with
  | create value hnew => exact h.created hnew rfl
  | @createReference rest C node ref hat hnew =>
    have hperm := h.perm hat
    obtain ⟨hroot, hholds⟩ := forest_singleton.mp (hperm.forest _ List.mem_cons_self)
    obtain ⟨⟨prev, next, hcell⟩, -⟩ := held_in_place ⟨_, _, hroot⟩ hholds
    obtain ⟨m', hnewItem, hrepresents⟩ :=
      @Represents.created m ref roots h
        { node.item with string := none, reference := true } hnew rfl
    refine ⟨m', ?_, hrepresents⟩
    have hperform : perform fuel (.createReference node.address ref) m =
        createReference node.address ref m := rfl
    rw [hperform]
    unfold createReference
    rw [hcell]
    exact hnewItem
  | @addItemToArray rest children C array item x hat hown =>
    have hlength := length_children_le C array item children (x :: rest)
    rw [(perm_ownedAll_of_perm hat).length_eq] at hfuel
    exact (h.perm hat).added hown (by omega)
  | @addItemToObject rest children C object item x string hat hown =>
    have hlength := length_children_le C object item children (x :: rest)
    rw [(perm_ownedAll_of_perm hat).length_eq] at hfuel
    obtain ⟨m₁, hwrite, hrenamed⟩ := (h.perm hat).renamed string
    have hroom : children.length ≤ fuel := by omega
    obtain ⟨m', hadd, hrepresents⟩ := hrenamed.added hown hroom
    refine ⟨m', ?_, hrepresents⟩
    have hperform : perform fuel (.addItemToObject object string x.address) m =
        addItemToObject fuel object string x.address m := rfl
    rw [hperform]
    unfold addItemToObject
    rw [hwrite]
    exact hadd
  | @detachItemFromArray rest pre post C array item x hat hown =>
    obtain ⟨m', hdetach, hrepresents⟩ := (h.perm hat).detached hown
    refine ⟨m', ?_, hrepresents⟩
    have hperform : perform fuel (.detachItemFromArray array pre.length) m =
        (detachItemFromArray array pre.length m).map Prod.snd := rfl
    rw [hperform, hdetach]
    rfl
  | @detachItemFromObject rest pre post C object item x string hat hown hbefore hname =>
    rw [(perm_ownedAll_of_perm hat).length_eq] at hfuel
    obtain ⟨m', hdetach, hrepresents⟩ := (h.perm hat).detachedByName hown hbefore hname hfuel
    refine ⟨m', ?_, hrepresents⟩
    have hperform : perform fuel (.detachItemFromObject object string) m =
        (detachItemFromObject fuel object string m).map Prod.snd := rfl
    rw [hperform, hdetach]
    rfl
  | @detachBeyond rest children C array which item hat hown hbeyond =>
    refine ⟨m, ?_, h⟩
    have hperform : perform fuel (.detachItemFromArray array which) m =
        (detachItemFromArray array which m).map Prod.snd := rfl
    rw [hperform, (h.perm hat).nothingAt hown hbeyond]
    rfl
  | @detachMissing rest children C object item string hat hown hmissing =>
    rw [(perm_ownedAll_of_perm hat).length_eq] at hfuel
    refine ⟨m, ?_, h⟩
    have hperform : perform fuel (.detachItemFromObject object string) m =
        (detachItemFromObject fuel object string m).map Prod.snd := rfl
    rw [hperform, (h.perm hat).nothingNamed hown hmissing hfuel]
    rfl
  | delete hat =>
    rw [(perm_ownedAll_of_perm hat).length_eq] at hfuel
    exact (h.perm hat).deleted hfuel

/-- An operation makes one item at most, so the fuel that a run needs is bounded by its
length. -/
theorem Use.length_le {op : Operation} (h : Use roots op roots') :
    (ownedAll roots').length ≤ (ownedAll roots).length + 1 := by
  cases h with
  | create value hnew =>
    rw [ownedAll, Node.owned, ownedAll, List.length_append, List.length_singleton]
    omega
  | createReference hat hnew =>
    rw [ownedAll, Node.owned, ownedAll, List.length_append, List.length_singleton]
    omega
  | @addItemToArray rest children C array item x hat hown =>
    rw [(perm_ownedAll_of_perm hat).length_eq,
        (owned_moved C array item _ children x rest).length_eq]
    omega
  | @addItemToObject rest children C object item x string hat hown =>
    rw [(perm_ownedAll_of_perm hat).length_eq,
        (owned_moved C object item _ children _ rest).length_eq,
      ownedAll, ownedAll, owned_named, ownedAll, ownedAll]
    omega
  | @detachItemFromArray rest pre post C array item x hat hown =>
    rw [(perm_ownedAll_of_perm hat).length_eq,
      (owned_detached C array item _ pre post x rest).length_eq]
    exact Nat.le_succ _
  | @detachItemFromObject rest pre post C object item x string hat hown hbefore hname =>
    rw [(perm_ownedAll_of_perm hat).length_eq,
      (owned_detached C object item _ pre post x rest).length_eq]
    exact Nat.le_succ _
  | detachBeyond hat hown hbeyond => exact Nat.le_succ _
  | detachMissing hat hown hmissing => exact Nat.le_succ _
  | delete hat =>
    rw [(perm_ownedAll_of_perm hat).length_eq, ownedAll, List.length_append]
    omega

/-- Each operation allocates one block at most. -/
theorem Uses.length_le {ops : List Operation} (h : Uses roots ops roots') :
    (ownedAll roots').length ≤ (ownedAll roots).length + ops.length := by
  induction h with
  | nil roots => exact le_rfl
  | cons huse _ ih =>
    have hlength := huse.length_le
    rw [List.length_cons]
    omega

/-- A run of operations. -/
theorem Represents.run {fuel : ℕ} {ops : List Operation} (h : Represents m roots)
    (hs : Uses roots ops roots') (hfuel : (ownedAll roots).length + ops.length ≤ fuel) :
    ∃ m', performAll fuel ops m = some m' ∧ Represents m' roots' := by
  induction hs generalizing m with
  | nil roots => exact ⟨m, rfl, h⟩
  | @cons roots roots₁ roots₂ op ops huse hs ih =>
    rw [List.length_cons] at hfuel
    have hlength := huse.length_le
    have hroom : (ownedAll roots).length ≤ fuel := by omega
    obtain ⟨m₁, hstep, hrepresents⟩ := h.step huse hroom
    obtain ⟨m₂, hrest, hrepresents⟩ := ih hrepresents (by omega)
    refine ⟨m₂, ?_, hrepresents⟩
    rw [performAll, hstep, Option.bind_some, hrest]

/-- The empty memory represents no tree. -/
theorem represents_empty : Represents (fun _ => none) [] where
  forest := fun root hroot => absurd hroot List.not_mem_nil
  nodup := by
    rw [ownedAll]
    exact List.nodup_nil
  allocated := by
    intro b
    rw [ownedAll]
    exact ⟨fun h => absurd h Bool.false_ne_true, fun h => absurd h List.not_mem_nil⟩

/-- However items are built, taken apart and freed from an empty memory on, as long as they
are used as they may be, no pointer is followed to nothing, no item is freed twice, and what
is left in memory is exactly what the trees still held own. -/
theorem items_owned {fuel : ℕ} {ops : List Operation} (hs : Uses [] ops roots)
    (hfuel : ops.length ≤ fuel) :
    ∃ m, performAll fuel ops (fun _ => none) = some m ∧ Represents m roots := by
  refine represents_empty.run hs ?_
  rw [ownedAll, List.length_nil]
  omega

/-- An object gets a member, is searched for another one, is borrowed, loses the member and is
freed. -/
theorem detached_member_owned : ∃ m, performAll 8 [.create 0 .object, .create 1 (.number 5 5),
      .addItemToObject 0 "bytes" 1, .detachItemFromObject 0 "server_output_json",
      .createReference 0 2, .detachItemFromObject 0 "bytes", .delete 2,
      .delete 0] (fun _ => none) = some m ∧
    Represents m [⟨1, { value := .number 5 5, string := some "bytes" }, []⟩] := by
  refine items_owned ?_ (by decide)
  refine Uses.cons (Use.create .object List.not_mem_nil) ?_
  refine Uses.cons (Use.create (.number 5 5) (by decide)) ?_
  refine Uses.cons (@Use.addItemToObject _ [] [] .top 0 { value := .object }
    ⟨1, { value := .number 5 5 }, []⟩ "bytes" (List.Perm.swap _ _ _) rfl) ?_
  refine Uses.cons (@Use.detachMissing _ []
    [⟨1, { value := .number 5 5, string := some "bytes" }, []⟩] .top 0 _ "server_output_json"
    (List.Perm.refl _) rfl (by decide)) ?_
  refine Uses.cons (@Use.createReference _ [] .top _ 2 (List.Perm.refl _) (by decide)) ?_
  refine Uses.cons (@Use.detachItemFromObject _ _ [] [] .top 0 _
    ⟨1, { value := .number 5 5, string := some "bytes" }, []⟩ "bytes" (List.Perm.swap _ _ _) rfl
    (by decide) (by decide)) ?_
  have hperm :
      ([⟨0, { value := .object }, []⟩, ⟨1, { value := .number 5 5, string := some "bytes" },
      []⟩, ⟨2, { value := .object, reference := true, child := some 1 }, []⟩] : List Node).Perm
      [⟨2, { value := .object, reference := true, child := some 1 }, []⟩,
        ⟨0, { value := .object }, []⟩, ⟨1, { value := .number 5 5, string := some "bytes" }, []⟩] :=
    List.perm_append_singleton _ [_, _]
  refine Uses.cons (Use.delete hperm) ?_
  exact Uses.cons (@Use.delete _ _ ⟨0, _, []⟩ (List.Perm.refl _)) (Uses.nil _)

end IperfRuntime.ItemOwnership
