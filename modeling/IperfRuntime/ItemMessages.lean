import IperfRuntime.ItemOwnership
import IperfRuntime.ResultsExchange

/-!
# The results as items

What a reader of items in memory sees, and the two places where an output changes hands: the
message of `send_results` borrows the JSON document of the server and is deleted, and
`get_results` takes the document out of a message that it deletes. The text that is made of
the message and its way over the connection are not part of this.
-/

namespace IperfRuntime.ItemMessages

open JsonTree LinkedCells JsonItems ItemOwnership TestState ResultsExchange

mutual

/-- The tree that `print_value` walks. -/
def readItem (m : Heap) : ℕ → Item → Option CJson
  | 0, _ => none
  | fuel + 1, item =>
    match item.value with
    | .null => some .null
    | .false => some .false
    | .true => some .true
    | .number valueint valuedouble => some (.number valueint valuedouble)
    | .string valuestring => some (.string valuestring)
    | .array => (readSiblings m fuel item.child).map fun members => .array (members.map Prod.snd)
    | .object => (readSiblings m fuel item.child).map .object

/-- The items from a pointer on; a null pointer is an empty name. -/
def readSiblings (m : Heap) : ℕ → Option ℕ → Option (List (String × CJson))
  | _, none => some []
  | 0, some _ => none
  | fuel + 1, some a => do
    let cell ← m a
    let child ← readItem m fuel cell.data
    let members ← readSiblings m fuel cell.next
    some ((cell.data.string.getD "", child) :: members)

end

mutual

/-- The tree of an item; those of references are given. -/
def Node.json (lent : ℕ → CJson) : Node → CJson
  | ⟨address, item, children⟩ =>
    if item.reference then lent address
    else
      match item.value with
      | .null => .null
      | .false => .false
      | .true => .true
      | .number valueint valuedouble => .number valueint valuedouble
      | .string valuestring => .string valuestring
      | .array => .array ((jsonAll lent children).map Prod.snd)
      | .object => .object (jsonAll lent children)

/-- The trees of siblings with their names. -/
def jsonAll (lent : ℕ → CJson) : List Node → List (String × CJson)
  | [] => []
  | node :: nodes => (node.item.string.getD "", Node.json lent node) :: jsonAll lent nodes

end

mutual

/-- The references in a tree. -/
def refs : Node → List (ℕ × Item)
  | ⟨address, item, children⟩ => if item.reference then [(address, item)] else refsAll children

/-- The references in some trees. -/
def refsAll : List Node → List (ℕ × Item)
  | [] => []
  | node :: nodes => refs node ++ refsAll nodes

end

/-- A reader that walks far enough sees the tree. -/
def Reads (m : Heap) (item : Item) (t : CJson) : Prop :=
  ∃ n, ∀ fuel, n ≤ fuel → readItem m fuel item = some t

/-- So it does from a pointer on. -/
def ReadsSiblings (m : Heap) (p : Option ℕ) (members : List (String × CJson)) : Prop :=
  ∃ n, ∀ fuel, n ≤ fuel → readSiblings m fuel p = some members

variable {m : Heap} {item : Item} {node top : Node} {nodes rest roots : List Node}
  {lent : ℕ → CJson}

/-- The members that a row of nodes shows are those of each node, under its name. -/
theorem jsonAll_eq (lent : ℕ → CJson) (nodes : List Node) :
    jsonAll lent nodes = nodes.map fun node => (node.item.string.getD "", Node.json lent node) := by
  induction nodes with
  | nil => rfl
  | cons node nodes ih => rw [jsonAll, ih, List.map_cons]

/-- The references of a row are those of each node. -/
theorem refsAll_eq (nodes : List Node) : refsAll nodes = nodes.flatMap refs := by
  induction nodes with
  | nil => rfl
  | cons node nodes ih => rw [refsAll, ih, List.flatMap_cons]

/-- A reader looks at the value and at the children only. -/
theorem Reads.same {item' : Item} {t : CJson} (h : Reads m item t)
    (hvalue : item'.value = item.value)
    (hchild : item'.child = item.child) : Reads m item' t := by
  obtain ⟨n, hn⟩ := h
  refine ⟨n, fun fuel hfuel => ?_⟩
  have hread := hn fuel hfuel
  cases fuel with
  | zero => exact hread
  | succ fuel =>
    rw [readItem] at hread ⊢
    rw [hvalue, hchild]
    exact hread

/-- The empty chain reads as no members. -/
theorem readsSiblings_nil (m : Heap) : ReadsSiblings m none [] := by
  refine ⟨0, fun fuel _ => ?_⟩
  rw [readSiblings]

/-- A chain reads as its first item and then the rest. -/
theorem readsSiblings_cons {a : ℕ} {cell : Cell Item} {t : CJson} {members : List (String × CJson)}
    (hcell : m a = some cell) (ht : Reads m cell.data t)
    (hrest : ReadsSiblings m cell.next members) :
    ReadsSiblings m (some a) ((cell.data.string.getD "", t) :: members) := by
  obtain ⟨n, hn⟩ := ht
  obtain ⟨k, hk⟩ := hrest
  refine ⟨max n k + 1, fun fuel hfuel => ?_⟩
  obtain ⟨fuel, rfl⟩ : ∃ f, fuel = f + 1 := ⟨fuel - 1, by omega⟩
  rw [readSiblings, hcell]
  dsimp only [Option.bind_eq_bind, Option.bind_some]
  rw [hn fuel (by omega), Option.bind_some, hk fuel (by omega)]
  rfl

/-- A reader of siblings sees each of them. -/
theorem readsSiblings_segment {prev : Option ℕ} (h : Segment m prev (cells nodes) none)
    (hnodes : ∀ node ∈ nodes, Reads m node.item (Node.json lent node)) :
    ReadsSiblings m (first (cells nodes) none) (jsonAll lent nodes) := by
  induction nodes generalizing prev with
  | nil => exact readsSiblings_nil m
  | cons node nodes ih =>
    obtain ⟨hcell, hrest⟩ := segment_cons.mp h
    have hcell : m node.address = some ⟨node.item, prev, first (cells nodes) none⟩ := hcell
    rw [jsonAll]
    exact readsSiblings_cons hcell (hnodes node List.mem_cons_self)
      (ih hrest fun other hother => hnodes other (List.mem_cons_of_mem _ hother))

/-- What a reader makes of an item with its children. -/
theorem reads_of_siblings {members : List (String × CJson)}
    (h : ReadsSiblings m item.child members) :
    (item.value = .array → Reads m item (.array (members.map Prod.snd))) ∧
      (item.value = .object → Reads m item (.object members)) := by
  obtain ⟨n, hn⟩ := h
  refine ⟨fun hvalue => ⟨n + 1, fun fuel hfuel => ?_⟩, fun hvalue => ⟨n + 1, fun fuel hfuel => ?_⟩⟩
  · obtain ⟨fuel, rfl⟩ : ∃ f, fuel = f + 1 := ⟨fuel - 1, by omega⟩
    rw [readItem, hvalue]
    dsimp only
    rw [hn fuel (by omega)]
    rfl
  · obtain ⟨fuel, rfl⟩ : ∃ f, fuel = f + 1 := ⟨fuel - 1, by omega⟩
    rw [readItem, hvalue]
    dsimp only
    rw [hn fuel (by omega)]
    rfl

/-- A reader sees the tree of an item that is in memory, when it sees those of the references
in it. -/
theorem reads_json (h : node.Holds m) (hlent : ∀ r ∈ refs node, Reads m r.2 (lent r.1)) :
    Reads m node.item (Node.json lent node) := by
  induction node using node_induction with
  | h node ih =>
    obtain ⟨address, item, children⟩ := node
    obtain ⟨hheaded, hforest⟩ := (holds_eq _).mp h
    have hheaded : Headed item children := hheaded
    obtain ⟨hsegment, hall⟩ := hforest
    rw [refs] at hlent
    rw [Node.json]
    unfold Headed at hheaded
    split
    · rename_i href
      rw [if_pos href] at hlent
      exact hlent (address, item) List.mem_cons_self
    · rename_i hown
      rw [if_neg hown] at hheaded hlent
      have hsiblings : ReadsSiblings m item.child (jsonAll lent children) := by
        rw [hheaded]
        refine readsSiblings_segment hsegment fun child hchild => ?_
        refine ih child hchild (holdsAll_iff.mp hall child hchild) fun r hr => hlent r ?_
        rw [refsAll_eq]
        exact List.mem_flatMap.mpr ⟨child, hchild, hr⟩
      obtain ⟨harray, hobject⟩ := reads_of_siblings hsiblings
      have hleaf : ∀ {t : CJson}, (∀ fuel, readItem m (fuel + 1) item = some t) →
          Reads m item t := by
        intro t ht
        refine ⟨1, fun fuel hfuel => ?_⟩
        obtain ⟨fuel, rfl⟩ : ∃ f, fuel = f + 1 := ⟨fuel - 1, by omega⟩
        exact ht fuel
      change Reads m item _
      cases hvalue : item.value with
      | null => exact hleaf fun fuel => by rw [readItem, hvalue]
      | false => exact hleaf fun fuel => by rw [readItem, hvalue]
      | true => exact hleaf fun fuel => by rw [readItem, hvalue]
      | number i d => exact hleaf fun fuel => by rw [readItem, hvalue]
      | string s => exact hleaf fun fuel => by rw [readItem, hvalue]
      | array => exact harray hvalue
      | object => exact hobject hvalue

/-- `cJSON_CreateNumber` of a `double`. -/
def doubleValue (q : ℚ) : Value := .number (q.num.tdiv q.den) q

/-- `cJSON_CreateNumber` of an integer. -/
def intValue (n : ℤ) : Value := .number n n

/-- A member without children. -/
def leaf (address : ℕ) (string : String) (value : Value) : Node :=
  ⟨address, { value := value, string := some string }, []⟩

/-- Members that are created and added one after the other. -/
def addLeaves (object base : ℕ) : List (String × Value) → List Operation
  | [] => []
  | (string, value) :: members =>
    .create base value :: .addItemToObject object string base :: addLeaves object (base + 1) members

/-- The items of such members. -/
def leaves (base : ℕ) : List (String × Value) → List Node
  | [] => []
  | (string, value) :: members => leaf base string value :: leaves (base + 1) members

/-- The figures in front of the output in `send_results`. -/
def headMembers (test : IperfTest) : List (String × Value) :=
  [("cpu_util_total", doubleValue test.cpuUtil.1), ("cpu_util_user", doubleValue test.cpuUtil.2.1),
    ("cpu_util_system", doubleValue test.cpuUtil.2.2),
    ("sender_has_retransmits", intValue (if test.sender then test.senderHasRetransmits else -1))]

/-- The figures of a stream. -/
def streamMembers (test : IperfTest) (sp : IperfStream) : List (String × Value) :=
  [("id", intValue sp.id), ("bytes", intValue (transferredBytes test sp)),
    ("retransmits", intValue
      (if test.sender && test.senderHasRetransmits != 0 then sp.result.streamRetrans else -1)),
    ("jitter", doubleValue sp.jitter), ("errors", intValue sp.cntError),
    ("packets", intValue sp.packetCount)]

/-- The server's output: a reference to its document, or a text. -/
def outputOperations (base top : ℕ) (test : IperfTest) : List Operation :=
  if test.role = .server ∧ test.getServerOutput then
    if test.jsonOutput then
      [.createReference top (base + 5), .addItemToObject base "server_output_json" (base + 5)]
    else addLeaves base (base + 5)
      [("server_output_text", .string (String.join test.serverOutputList))]
  else []

/-- The loop over the streams. -/
def streamOperations (streams : ℕ) (test : IperfTest) : ℕ → List IperfStream → List Operation
  | _, [] => []
  | base, sp :: sps =>
    .create base .object :: .addItemToArray streams base ::
      (addLeaves base (base + 1) (streamMembers test sp) ++
        streamOperations streams test (base + 7) sps)

/-- `send_results` on items, up to the message; new items get the addresses from the given one
on. -/
def sendResultsOperations (base top : ℕ) (test : IperfTest) : List Operation :=
  .create base .object :: (addLeaves base (base + 1) (headMembers test) ++
    (outputOperations base top test ++
      (.create (base + 6) .array :: .addItemToObject base "streams" (base + 6) ::
        streamOperations (base + 6) test (base + 7) test.streams)))

/-- The item of the server's output. -/
def outputNodes (base : ℕ) (top : Item) (test : IperfTest) : List Node :=
  if test.role = .server ∧ test.getServerOutput then
    if test.jsonOutput then
      [⟨base + 5, { top with string := some "server_output_json", reference := true }, []⟩]
    else leaves (base + 5) [("server_output_text", .string (String.join test.serverOutputList))]
  else []

/-- The item of a stream. -/
def streamNode (base : ℕ) (test : IperfTest) (sp : IperfStream) : Node :=
  ⟨base, headed { value := .object } (leaves (base + 1) (streamMembers test sp)),
    leaves (base + 1) (streamMembers test sp)⟩

/-- The items of the streams. -/
def streamNodes (test : IperfTest) : ℕ → List IperfStream → List Node
  | _, [] => []
  | base, sp :: sps => streamNode base test sp :: streamNodes test (base + 7) sps

/-- The item of the streams' array. -/
def streamsNode (base : ℕ) (nodes : List Node) : Node :=
  ⟨base + 6, headed { value := .array, string := some "streams" } nodes, nodes⟩

/-- What the message of `send_results` owns. -/
def messageNodes (base : ℕ) (top : Item) (test : IperfTest) : List Node :=
  leaves (base + 1) (headMembers test) ++ outputNodes base top test ++
    [streamsNode base (streamNodes test (base + 7) test.streams)]

/-- The message. -/
def messageNode (base : ℕ) (top : Item) (test : IperfTest) : Node :=
  ⟨base, headed { value := .object } (messageNodes base top test), messageNodes base top test⟩

/-- All items have addresses below the given one. -/
def Below (n : ℕ) (roots : List Node) : Prop := ∀ b ∈ ownedAll roots, b < n

/-- Nodes lie below an address if each block of each node does. -/
theorem below_cons {n : ℕ} {root : Node} :
    Below n (root :: roots) ↔ (∀ b ∈ root.owned, b < n) ∧ Below n roots := by
  unfold Below
  rw [ownedAll]
  exact List.forall_mem_append

/-- The next block lies below the one after it. -/
theorem below_new {n : ℕ} (item : Item) (h : Below n roots) :
    Below (n + 1) (⟨n, item, []⟩ :: roots) := by
  refine below_cons.mpr ⟨fun b hb => ?_, fun b hb => (h b hb).trans (Nat.lt_succ_self n)⟩
  rw [Node.owned, ownedAll] at hb
  rw [List.mem_singleton.mp hb]
  exact Nat.lt_succ_self n

/-- Moving a node under another keeps all blocks below the address. -/
theorem below_moved {C : Context} {n a : ℕ} {item : Item} (item' : Item) {children : List Node}
    {x : Node} (h : Below n (C.fill ⟨a, item, children⟩ :: x :: rest)) :
    Below n (C.fill ⟨a, item', children ++ [x]⟩ :: rest) :=
  fun b hb => h b ((owned_moved C a item item' children x rest).mem_iff.mp hb)

/-- So does changing the order of the nodes. -/
theorem below_swap {n : ℕ} {x y : Node} (h : Below n (x :: y :: rest)) :
    Below n (y :: x :: rest) := by
  obtain ⟨hx, hrest⟩ := below_cons.mp h
  obtain ⟨hy, hrest⟩ := below_cons.mp hrest
  exact below_cons.mpr ⟨hy, below_cons.mpr ⟨hx, hrest⟩⟩

/-- One item that is created and added under a name. -/
theorem uses_addLeaf {C : Context} {a base : ℕ} {item : Item} {children : List Node}
    {ops : List Operation} {roots' : List Node} (string : String) (value : Value)
    (hown : item.reference = false) (hbelow : Below base (C.fill ⟨a, item, children⟩ :: rest))
    (h : Below (base + 1) (C.fill ⟨a, headed item (children ++ [leaf base string value]),
        children ++ [leaf base string value]⟩ :: rest) →
      Uses (C.fill ⟨a, headed item (children ++ [leaf base string value]),
        children ++ [leaf base string value]⟩ :: rest) ops roots') :
    Uses (C.fill ⟨a, item, children⟩ :: rest)
      (.create base value :: .addItemToObject a string base :: ops) roots' := by
  have hnew : base ∉ ownedAll (C.fill ⟨a, item, children⟩ :: rest) :=
    fun hmem => absurd (hbelow base hmem) (lt_irrefl base)
  have hcreate := Use.create value hnew
  have hadd := @Use.addItemToObject _ rest children C a item ⟨base, { value := value }, []⟩ string
    (List.Perm.swap (C.fill ⟨a, item, children⟩) ⟨base, { value := value }, []⟩ rest) hown
  refine Uses.cons hcreate (Uses.cons hadd (h ?_))
  have hgrown : Below (base + 1) (⟨base, { value := value, string := some string }, []⟩ ::
      C.fill ⟨a, item, children⟩ :: rest) := below_new _ hbelow
  exact below_moved _ (below_swap hgrown)

/-- Members that are created and added one after the other. -/
theorem uses_addLeaves {C : Context} {a : ℕ} {item : Item} (hown : item.reference = false)
    (members : List (String × Value)) {base : ℕ} {children : List Node} {ops : List Operation}
    {roots' : List Node}
    (hbelow : Below base (C.fill ⟨a, headed item children, children⟩ :: rest))
    (h : Below (base + members.length) (C.fill ⟨a, headed item (children ++ leaves base members),
        children ++ leaves base members⟩ :: rest) →
      Uses (C.fill ⟨a, headed item (children ++ leaves base members),
        children ++ leaves base members⟩ :: rest) ops roots') :
    Uses (C.fill ⟨a, headed item children, children⟩ :: rest)
      (addLeaves a base members ++ ops) roots' := by
  induction members generalizing base children with
  | nil =>
    rw [leaves, List.append_nil, List.length_nil, Nat.add_zero] at h
    exact h hbelow
  | cons member members ih =>
    obtain ⟨string, value⟩ := member
    refine uses_addLeaf string value hown hbelow fun hgrown => ih hgrown fun hall => ?_
    have hlength : base + ((string, value) :: members).length = base + 1 + members.length := by
      rw [List.length_cons]
      omega
    rw [hlength, leaves, List.append_cons] at h
    exact h hall

/-- Replacing a node by one at the same address keeps the head of the chain. -/
theorem headed_replace {item : Item} {x y : Node} (nodes : List Node)
    (haddress : y.address = x.address) :
    headed item (nodes ++ [y]) = headed item (nodes ++ [x]) := by
  unfold headed
  cases nodes with
  | nil =>
    have hfirst : first (cells ([] ++ [y])) none = first (cells ([] ++ [x])) none :=
      congrArg some haddress
    rw [hfirst]
  | cons node nodes => rfl

/-- The streams, one after the other: each is built on its own and becomes the last element of
the array, by induction on the streams. -/
theorem uses_streamOperations {C : Context} {streams : ℕ} {item : Item}
    (hown : item.reference = false) (test : IperfTest) (sps : List IperfStream) {base : ℕ}
    {children : List Node}
    (hbelow : Below base (C.fill ⟨streams, headed item children, children⟩ :: rest)) :
    Uses (C.fill ⟨streams, headed item children, children⟩ :: rest)
      (streamOperations streams test base sps)
      (C.fill ⟨streams, headed item (children ++ streamNodes test base sps),
        children ++ streamNodes test base sps⟩ :: rest) := by
  induction sps generalizing base children with
  | nil =>
    rw [streamOperations, streamNodes, List.append_nil]
    exact Uses.nil _
  | cons sp sps ih =>
    have hnew : base ∉ ownedAll (C.fill ⟨streams, headed item children, children⟩ :: rest) :=
      fun hmem => absurd (hbelow base hmem) (lt_irrefl base)
    have hcreate := Use.create Value.object hnew
    have hadd := @Use.addItemToArray _ rest children C streams (headed item children)
      ⟨base, { value := .object }, []⟩
      (List.Perm.swap (C.fill ⟨streams, headed item children, children⟩)
        ⟨base, { value := .object }, []⟩ rest) hown
    have hgrown := below_moved (headed item (children ++ [⟨base, { value := .object }, []⟩]))
      (below_swap (below_new { value := .object } hbelow))
    let D := C.comp (.under streams (headed item (children ++ [⟨base, { value := .object }, []⟩]))
      children .top [])
    have hplace : ∀ node : Node, D.fill node = C.fill ⟨streams,
        headed item (children ++ [⟨base, { value := .object }, []⟩]), children ++ [node]⟩ :=
      fun node => fill_comp C _ node
    have hempty : headed { value := .object } [] = { value := .object } := rfl
    have hbelowD : Below (base + 1)
        (D.fill ⟨base, headed { value := .object } [], []⟩ :: rest) := by
      rw [hplace, hempty]
      exact hgrown
    have hfigures := @uses_addLeaves rest D base { value := .object } rfl (streamMembers test sp)
      (base + 1) [] (streamOperations streams test (base + 7) sps)
      (C.fill ⟨streams, headed item (children ++ streamNodes test base (sp :: sps)),
        children ++ streamNodes test base (sp :: sps)⟩ :: rest) hbelowD fun hall => by
      rw [hplace, List.nil_append] at hall ⊢
      have hnode : (⟨base, headed { value := .object } (leaves (base + 1) (streamMembers test sp)),
          leaves (base + 1) (streamMembers test sp)⟩ : Node) = streamNode base test sp := rfl
      have hsame := @headed_replace item (streamNode base test sp)
        ⟨base, { value := .object }, []⟩ children rfl
      have hcons : children ++ streamNodes test base (sp :: sps) =
          children ++ [streamNode base test sp] ++ streamNodes test (base + 7) sps := by
        rw [streamNodes, List.append_assoc, List.singleton_append]
      rw [hnode, hsame] at hall ⊢
      rw [hcons]
      exact ih hall
    rw [hplace, hempty] at hfigures
    rw [streamOperations]
    exact Uses.cons hcreate (Uses.cons hadd hfigures)

/-- The server's output in the message: a text of its own, or a reference to the document, or
nothing if the client did not ask. -/
theorem uses_outputOperations {base : ℕ} {children : List Node} {ops : List Operation}
    {roots' : List Node} (test : IperfTest)
    (hbelow : Below (base + 5)
        (⟨base, headed { value := .object } children, children⟩ :: top :: rest))
    (h : Below (base + 6) (⟨base, headed { value := .object } (children ++
          outputNodes base top.item test), children ++ outputNodes base top.item test⟩
            :: top :: rest) →
      Uses (⟨base, headed { value := .object } (children ++ outputNodes base top.item test),
        children ++ outputNodes base top.item test⟩ :: top :: rest) ops roots') :
    Uses (⟨base, headed { value := .object } children, children⟩ :: top :: rest)
      (outputOperations base top.address test ++ ops) roots' := by
  unfold outputOperations
  unfold outputNodes at h
  split
  · rename_i hasks
    rw [if_pos hasks] at h
    split
    · rename_i hjson
      rw [if_pos hjson] at h
      have hnew : base + 5 ∉ ownedAll
          (⟨base, headed { value := .object } children, children⟩ :: top :: rest) :=
        fun hmem => absurd (hbelow _ hmem) (lt_irrefl _)
      have hrefer := @Use.createReference _
        (⟨base, headed { value := .object } children, children⟩ :: rest) .top top (base + 5)
        (List.Perm.swap top ⟨base, headed { value := .object } children, children⟩ rest) hnew
      have hadd := @Use.addItemToObject _ (top :: rest) children .top base
        (headed { value := .object } children)
        ⟨base + 5, { top.item with string := none, reference := true }, []⟩ "server_output_json"
        (List.Perm.swap ⟨base, headed { value := .object } children, children⟩ _ (top :: rest)) rfl
      refine Uses.cons hrefer (Uses.cons hadd (h ?_))
      have hgrown := below_new (n := base + 5)
        { top.item with string := some "server_output_json", reference := true } hbelow
      exact below_moved (C := .top) _ (below_swap hgrown)
    · rename_i hjson
      rw [if_neg hjson] at h
      exact uses_addLeaves (C := .top) rfl _ hbelow h
  · rename_i hasks
    rw [if_neg hasks, List.append_nil] at h
    exact h fun b hb => (hbelow b hb).trans (Nat.lt_succ_self _)

/-- The operations of `send_results` use items as they may be used, and build the message. -/
theorem uses_sendResults {base : ℕ} (test : IperfTest) (hbelow : Below base (top :: rest)) :
    Uses (top :: rest) (sendResultsOperations base top.address test)
      (messageNode base top.item test :: top :: rest) := by
  have hnew : base ∉ ownedAll (top :: rest) :=
      fun hmem => absurd (hbelow base hmem) (lt_irrefl base)
  have hcreated : Below (base + 1) (⟨base, headed { value := .object } [], []⟩ :: top :: rest) :=
    below_new _ hbelow
  unfold sendResultsOperations
  refine Uses.cons (Use.create _ hnew) ?_
  refine uses_addLeaves (C := .top) rfl (headMembers test) hcreated fun hfigures => ?_
  refine uses_outputOperations test hfigures fun houtput => ?_
  refine uses_addLeaf (C := .top) "streams" .array rfl houtput fun hstreams => ?_
  have hloop := @uses_streamOperations (top :: rest) (.under base
    (headed { value := .object } (leaves (base + 1) (headMembers test) ++
      outputNodes base top.item test ++ [leaf (base + 6) "streams" .array]))
    (leaves (base + 1) (headMembers test) ++ outputNodes base top.item test) .top []) (base + 6)
    { value := .array, string := some "streams" } rfl test test.streams (base + 7) [] hstreams
  rw [List.nil_append] at hloop
  have hsame := @headed_replace { value := .object }
    (streamsNode base (streamNodes test (base + 7) test.streams)) (leaf (base + 6) "streams" .array)
    (leaves (base + 1) (headMembers test) ++ outputNodes base top.item test) rfl
  unfold messageNode messageNodes
  rw [← hsame]
  exact hloop

/-- The trees of members without children. -/
theorem jsonAll_leaves (lent : ℕ → CJson) (base : ℕ) (members : List (String × Value)) :
    jsonAll lent (leaves base members) =
      members.map fun member => (member.1, Node.json lent ⟨0, { value := member.2 }, []⟩) := by
  induction members generalizing base with
  | nil => rfl
  | cons member members ih =>
    obtain ⟨string, value⟩ := member
    rw [leaves, jsonAll, ih, List.map_cons]
    rfl

/-- Two rows show the members of the first and then those of the second. -/
theorem jsonAll_append (lent : ℕ → CJson) (pre post : List Node) :
    jsonAll lent (pre ++ post) = jsonAll lent pre ++ jsonAll lent post := by
  rw [jsonAll_eq, jsonAll_eq, jsonAll_eq, List.map_append]

/-- The node built for a stream shows the object that `send_results` sends for it. -/
theorem json_streamNode (lent : ℕ → CJson) (base : ℕ) (test : IperfTest) (sp : IperfStream) :
    Node.json lent (streamNode base test sp) = streamResult test sp := by
  unfold streamNode
  rw [Node.json, jsonAll_leaves]
  rfl

/-- The nodes of all streams show the objects of all streams. -/
theorem jsonAll_streamNodes (lent : ℕ → CJson) (test : IperfTest) (base : ℕ)
    (sps : List IperfStream) :
    (jsonAll lent (streamNodes test base sps)).map Prod.snd = sps.map (streamResult test) := by
  induction sps generalizing base with
  | nil => rfl
  | cons sp sps ih => rw [streamNodes, jsonAll, List.map_cons, ih, json_streamNode, List.map_cons]

/-- The items of the message are the tree of `send_results`, with the document in the place of
the reference to it. -/
theorem json_messageNode (base : ℕ) (top : Item) (test : IperfTest) (jsonTop : CJson) :
    Node.json (fun _ => jsonTop) (messageNode base top test) = sendResults jsonTop test := by
  have hstreams : jsonAll (fun _ => jsonTop) [streamsNode base (streamNodes test (base + 7)
      test.streams)] = [("streams", .array (test.streams.map (streamResult test)))] := by
    rw [jsonAll, jsonAll, ← jsonAll_streamNodes (fun _ => jsonTop) test (base + 7)]
    unfold streamsNode
    rw [Node.json]
    rfl
  have houtput : jsonAll (fun _ => jsonTop) (outputNodes base top test) =
      if test.role = .server ∧ test.getServerOutput then
        if test.jsonOutput then [("server_output_json", jsonTop)]
        else [("server_output_text", .string (String.join test.serverOutputList))]
      else [] := by
    unfold outputNodes
    split
    · split
      · rw [jsonAll, Node.json, jsonAll]
        rfl
      · rw [jsonAll_leaves]
        rfl
    · rfl
  unfold messageNode sendResults
  rw [Node.json]
  unfold messageNodes
  rw [jsonAll_append, jsonAll_append, jsonAll_leaves, houtput, hstreams]
  rfl

/-- The only reference in the message is the one to the document, which keeps its item and its
chain. -/
theorem refs_messageNode {base : ℕ} {top : Item} {test : IperfTest} {r : ℕ × Item}
    (hr : r ∈ refs (messageNode base top test)) :
    r.2.value = top.value ∧ r.2.child = top.child := by
  have hleaves : ∀ (base : ℕ) (members : List (String × Value)),
      refsAll (leaves base members) = [] := by
    intro base members
    induction members generalizing base with
    | nil => rfl
    | cons member members ih =>
      rw [leaves, refsAll, ih]
      rfl
  have hnodes : ∀ (base : ℕ) (sps : List IperfStream),
      refsAll (streamNodes test base sps) = [] := by
    intro base sps
    induction sps generalizing base with
    | nil => rfl
    | cons sp sps ih =>
      rw [streamNodes, refsAll, ih, List.append_nil]
      exact hleaves _ _
  have hstreams : refsAll [streamsNode base (streamNodes test (base + 7) test.streams)] = [] := by
    rw [refsAll, refsAll, List.append_nil]
    exact hnodes _ _
  have hall : refs (messageNode base top test) = refsAll (outputNodes base top test) := by
    unfold messageNode
    rw [refs]
    unfold messageNodes
    rw [refsAll_eq, List.flatMap_append, List.flatMap_append, ← refsAll_eq, ← refsAll_eq,
      ← refsAll_eq, hleaves, hstreams]
    simp [headed]
  rw [hall] at hr
  unfold outputNodes at hr
  split at hr
  · split at hr
    · rw [refsAll, refsAll, refs, if_pos rfl, List.append_nil, List.mem_singleton] at hr
      rw [hr]
      exact ⟨rfl, rfl⟩
    · rw [hleaves] at hr
      cases hr
  · cases hr

/-- A tree in memory reads as it is, when what it refers to does. -/
theorem reads_held (h : Represents m roots) (hnode : node ∈ roots)
    (hlent : ∀ r ∈ refs node, Reads m r.2 (lent r.1)) :
    (∃ cell, m node.address = some cell ∧ cell.data = node.item) ∧
      Reads m node.item (Node.json lent node) := by
  obtain ⟨hcell, hholds⟩ := forest_singleton.mp (h.forest node hnode)
  exact ⟨⟨_, hcell, rfl⟩, reads_json hholds hlent⟩

/-- A tree without references reads the same in every memory that holds it. -/
theorem reads_own (h : Represents m roots) (hnode : node ∈ roots) (hown : refs node = []) :
    Reads m node.item (Node.json lent node) := by
  refine (reads_held h hnode fun r hr => ?_).2
  rw [hown] at hr
  exact absurd hr List.not_mem_nil

/-- So does a child of a tree. -/
theorem reads_child {a : ℕ} {children : List Node} (h : Represents m (⟨a, item, children⟩ :: rest))
    (hnode : node ∈ children) (hown : refs node = []) :
    Reads m node.item (Node.json lent node) := by
  obtain ⟨-, hholds⟩ := forest_singleton.mp (h.forest _ List.mem_cons_self)
  obtain ⟨-, -, hall⟩ := (holds_eq _).mp hholds
  refine reads_json (holdsAll_iff.mp hall node hnode) fun r hr => ?_
  rw [hown] at hr
  exact absurd hr List.not_mem_nil

/-- The name of an item is not part of its tree. -/
theorem json_named (lent : ℕ → CJson) (string : String) (node : Node) :
    Node.json lent (named (some string) node) = Node.json lent node := by
  obtain ⟨address, item, children⟩ := node
  unfold named
  rw [Node.json, Node.json]
  rfl

/-- Naming a node adds no reference. -/
theorem refs_named (string : String) (h : refs node = []) :
    refs (named (some string) node) = [] := by
  obtain ⟨address, item, children⟩ := node
  rw [refs] at h
  unfold named
  rw [refs]
  split at h
  · cases h
  · rename_i hown
    exact (if_neg hown).trans h

/-- The life of a message of `send_results`. Whatever streams there are and whatever output is
asked for, its operations never follow a dangling pointer; what is printed of the items is the
message, the server's document in it included; and once the message is deleted, the memory is
what it was before, and the document that was lent reads as before. -/
theorem sendResults_returned {fuel base : ℕ} (test : IperfTest) (h : Represents m (top :: rest))
    (hbelow : Below base (top :: rest)) (hown : refs top = [])
    (hfuel : (ownedAll (top :: rest)).length +
      (sendResultsOperations base top.address test).length ≤ fuel) :
    ∃ m₁ m₂, performAll fuel (sendResultsOperations base top.address test) m = some m₁ ∧
      (∃ cell, m₁ base = some cell ∧
        Reads m₁ cell.data (sendResults (Node.json lent top) test)) ∧
      delete fuel (some base) m₁ = some m₂ ∧ Represents m₂ (top :: rest) ∧
      Reads m₂ top.item (Node.json lent top) := by
  have huses := uses_sendResults test hbelow
  have hlength := huses.length_le
  obtain ⟨m₁, hrun, hrepresents⟩ := h.run huses hfuel
  have htop : Reads m₁ top.item (Node.json lent top) :=
    reads_own hrepresents (List.mem_cons_of_mem _ List.mem_cons_self) hown
  have hlent : ∀ r ∈ refs (messageNode base top.item test), Reads m₁ r.2 (Node.json lent top) := by
    intro r hr
    obtain ⟨hvalue, hchild⟩ := refs_messageNode hr
    exact htop.same hvalue hchild
  obtain ⟨⟨cell, hcell, hdata⟩, hreads⟩ :=
    @reads_held m₁ _ _ (fun _ => Node.json lent top) hrepresents List.mem_cons_self hlent
  have hroom : (ownedAll (messageNode base top.item test :: top :: rest)).length ≤ fuel := by omega
  obtain ⟨m₂, hdelete, hreturned⟩ := hrepresents.deleted hroom
  rw [json_messageNode base top.item test, ← hdata] at hreads
  exact ⟨m₁, m₂, hrun, ⟨cell, hcell, hreads⟩, hdelete, hreturned,
    reads_own hreturned List.mem_cons_self hown⟩

/-- A document with one member. -/
def titled (base : ℕ) : Node :=
  ⟨base, { value := .object, child := some (base + 1) },
      [leaf (base + 1) "title" (.string "evening")]⟩

/-- The small document is built by three operations. -/
theorem uses_titled (base : ℕ) :
    Uses [] [.create base .object, .create (base + 1) (.string "evening"),
      .addItemToObject base "title" (base + 1)] [titled base] := by
  have hnone : Below base [] := fun b hb => absurd hb List.not_mem_nil
  refine Uses.cons (Use.create .object List.not_mem_nil) ?_
  exact @uses_addLeaf [] .top base (base + 1) { value := .object } [] [] _ "title"
    (.string "evening") rfl (below_new _ hnone) fun _ => Uses.nil _

/-- A server that a client asks for its output. -/
def askedServer : IperfTest :=
  { role := .server, getServerOutput := true, jsonOutput := true, streams := [{ id := 1 }] }

/-- It is returned whole when it is sent along with the results. -/
theorem titled_returned : ∃ m m₁ m₂, Represents m [titled 0] ∧
    performAll 40 (sendResultsOperations 2 0 askedServer) m = some m₁ ∧
    (∃ cell, m₁ 2 = some cell ∧
      Reads m₁ cell.data (sendResults (.object [("title", .string "evening")]) askedServer)) ∧
    delete 40 (some 2) m₁ = some m₂ ∧ Represents m₂ [titled 0] ∧
    Reads m₂ (titled 0).item (.object [("title", .string "evening")]) := by
  have hbelow : Below 2 [titled 0] := by
    unfold Below
    decide
  obtain ⟨m, -, hrepresents⟩ := represents_empty.run (uses_titled 0) (Nat.le_of_eq rfl)
  obtain ⟨m₁, m₂, hrun, hread, hdelete, hreturned, hkept⟩ :=
    @sendResults_returned m (titled 0) [] (fun _ => .null) 40 2 askedServer hrepresents hbelow rfl
      (by decide)
  exact ⟨m, m₁, m₂, hrepresents, hrun, hread, hdelete, hreturned, hkept⟩

/-- A tree that becomes the last member of an object is freed with it, and in between it is
read as that member. -/
theorem document_extended {fuel b : ℕ} {own : Item} {children : List Node} {x : Node}
    (h : Represents m (⟨b, own, children⟩ :: x :: rest)) (string : String)
    (hown : own.reference = false) (hobject : own.value = .object)
    (hchildren : refsAll children = [])
    (hrefs : refs x = []) (hfuel : (ownedAll (⟨b, own, children⟩ :: x :: rest)).length ≤ fuel) :
    ∃ m₁ m₂, addItemToObject fuel b string x.address m = some m₁ ∧
      (∃ cell, m₁ b = some cell ∧
        Reads m₁ cell.data (.object (jsonAll lent children ++ [(string, Node.json lent x)]))) ∧
      delete fuel (some b) m₁ = some m₂ ∧ Represents m₂ rest := by
  obtain ⟨m', hwrite, hrenamed⟩ := h.renamed string
  obtain ⟨y, hy⟩ : ∃ y, y = named (some string) x := ⟨_, rfl⟩
  rw [← hy] at hrenamed
  have hname : y.item.string.getD "" = string := by rw [hy]; rfl
  have hjson : Node.json lent y = Node.json lent x := by rw [hy, json_named]
  have hroom := length_children_le .top b own children (x :: rest)
  obtain ⟨m₁, hadd, hrepresents⟩ :=
    @Represents.added m' b own .top y rest children fuel hrenamed hown (hroom.le.trans hfuel)
  have hadd : addItemToArray fuel b x.address m' = some m₁ := by
    rw [← hadd, hy]
    rfl
  have hitem : (headed own (children ++ [y])).reference = false := hown
  have hvalue : (headed own (children ++ [y])).value = .object := hobject
  have hall : refs ⟨b, headed own (children ++ [y]), children ++ [y]⟩ = [] := by
    rw [refs, if_neg (by rw [hitem]; exact Bool.false_ne_true), refsAll_eq, List.flatMap_append,
      ← refsAll_eq, ← refsAll_eq, hchildren, refsAll, refsAll, hy, refs_named string hrefs]
    rfl
  have hread : Reads m₁ (headed own (children ++ [y]))
      (Node.json lent ⟨b, headed own (children ++ [y]), children ++ [y]⟩) :=
    reads_own hrepresents List.mem_cons_self hall
  rw [Node.json, if_neg (by rw [hitem]; exact Bool.false_ne_true), hvalue] at hread
  dsimp only at hread
  rw [jsonAll_append, jsonAll, jsonAll, hname, hjson] at hread
  have hlength : (ownedAll (⟨b, headed own (children ++ [y]), children ++ [y]⟩ :: rest)).length ≤
      fuel := by
    have hmoved := (owned_moved .top b own (headed own (children ++ [y])) children y rest).length_eq
    have hnamed : (ownedAll (⟨b, own, children⟩ :: y :: rest)).length =
        (ownedAll (⟨b, own, children⟩ :: x :: rest)).length := by
      rw [ownedAll, ownedAll, ownedAll, ownedAll, hy, owned_named]
    exact (hmoved.trans hnamed).trans_le hfuel
  obtain ⟨m₂, hdelete, hrest⟩ := hrepresents.deleted hlength
  obtain ⟨hcell, -⟩ := forest_singleton.mp (hrepresents.forest _ List.mem_cons_self)
  refine ⟨m₁, m₂, ?_, ⟨_, hcell, hread⟩, hdelete, hrest⟩
  unfold addItemToObject
  rw [hwrite]
  exact hadd

/-- The output in `get_results`, and after it in `iperf_json_finish`. The document that is taken
out of the message stands alone, the rest of the message is freed whole, and the document reads
as it did in the message; it then is the last member of the test's own document, and goes with
it when that is freed. -/
theorem output_handed_on {fuel a b : ℕ} {pre post children : List Node} {item own : Item} {x : Node}
    (h : Represents m (⟨a, item, pre ++ x :: post⟩ :: ⟨b, own, children⟩ :: rest))
    (hmessage : item.reference = false)
    (hbefore : ∀ y ∈ pre, y.item.string.any (sameKey · "server_output_json") = false)
    (hname : x.item.string.any (sameKey · "server_output_json") = true) (hrefs : refs x = [])
    (hown : own.reference = false) (hobject : own.value = .object)
    (hchildren : refsAll children = [])
    (hfuel : (ownedAll (⟨a, item, pre ++ x :: post⟩ :: ⟨b, own, children⟩ :: rest)).length ≤ fuel) :
    ∃ m₁ m₂ m₃ m₄, detachItemFromObject fuel a "server_output_json" m = some (some x.address, m₁) ∧
      delete fuel (some a) m₁ = some m₂ ∧ Represents m₂ (x :: ⟨b, own, children⟩ :: rest) ∧
      Reads m x.item (Node.json lent x) ∧ Reads m₂ x.item (Node.json lent x) ∧
      addItemToObject fuel b "server_output_json" x.address m₂ = some m₃ ∧
      (∃ cell, m₃ b = some cell ∧ Reads m₃ cell.data (.object (jsonAll lent children ++
        [("server_output_json", Node.json lent x)]))) ∧
      delete fuel (some b) m₃ = some m₄ ∧ Represents m₄ rest := by
  have hread : Reads m x.item (Node.json lent x) :=
    reads_child h (List.mem_append_right pre List.mem_cons_self) hrefs
  obtain ⟨m₁, hdetach, hrepresents⟩ := @Represents.detachedByName m a item .top x _ pre post fuel
    "server_output_json" h hmessage hbefore hname hfuel
  have hall := (owned_detached .top a item (headed item (pre ++ post)) pre post x
    (⟨b, own, children⟩ :: rest)).length_eq
  obtain ⟨m₂, hdelete, hrepresents₂⟩ := hrepresents.deleted (hall.trans_le hfuel)
  have hread₂ : Reads m₂ x.item (Node.json lent x) :=
    reads_own hrepresents₂ List.mem_cons_self hrefs
  have hswap := List.Perm.swap ⟨b, own, children⟩ x rest
  have hlength : (ownedAll (⟨b, own, children⟩ :: x :: rest)).length ≤ fuel := by
    have hmessageOwned := hall.trans_le hfuel
    rw [Context.fill, ownedAll, List.length_append,
      (perm_ownedAll_of_perm hswap).length_eq] at hmessageOwned
    omega
  obtain ⟨m₃, m₄, hadd, hread₃, hfree, hrepresents₄⟩ := document_extended (hrepresents₂.perm hswap)
    "server_output_json" hown hobject hchildren hrefs hlength
  exact ⟨m₁, m₂, m₃, m₄, hdetach, hdelete, hrepresents₂, hread, hread₂, hadd, hread₃, hfree,
    hrepresents₄⟩

/-- The document of a server, as a member of its message. -/
def serverDocument : Node :=
  ⟨7, { value := .object, child := some 8, string := some "server_output_json" },
    [leaf 8 "title" (.string "noon"), leaf 9 "bytes" (intValue 131072)]⟩

/-- A message with a figure, this document and an array. -/
def serverMessage : Node :=
  ⟨5, { value := .object, child := some 6 },
    [leaf 6 "sender_has_retransmits" (intValue (-1))] ++ serverDocument ::
      [leaf 10 "streams" .array]⟩

/-- A message of the server with a number on either side of the document is built likewise. -/
theorem uses_serverMessage : Uses [titled 0] [.create 5 .object, .create 6 (intValue (-1)),
      .addItemToObject 5 "sender_has_retransmits" 6, .create 7 .object,
      .create 8 (.string "noon"), .addItemToObject 7 "title" 8, .create 9 (intValue 131072),
      .addItemToObject 7 "bytes" 9, .addItemToObject 5 "server_output_json" 7,
      .create 10 .array, .addItemToObject 5 "streams" 10] [serverMessage, titled 0] := by
  have hbelow : Below 5 [titled 0] := by
    unfold Below
    decide
  refine Uses.cons (Use.create .object (by decide)) ?_
  refine @uses_addLeaf [titled 0] .top 5 6 { value := .object } [] _ _ _ (intValue (-1)) rfl
    (below_new _ hbelow) fun hhead => ?_
  refine Uses.cons (Use.create .object (by decide)) ?_
  refine @uses_addLeaf _ .top 7 8 { value := .object } [] _ _ "title" (.string "noon") rfl
    (below_new _ hhead) fun htitle => ?_
  refine @uses_addLeaf _ .top 7 9 _ _ _ _ "bytes" (intValue 131072) rfl htitle fun hdocument => ?_
  refine Uses.cons (@Use.addItemToObject _ [titled 0] _ .top 5 _ _ "server_output_json"
    (List.Perm.swap _ _ _) rfl) ?_
  exact @uses_addLeaf _ .top 5 10 _ _ _ _ "streams" .array rfl
    (below_moved (x := serverDocument) _ (below_swap hdocument)) fun _ => Uses.nil _

/-- The document comes out of that message whole, and into the document of the client. -/
theorem document_handed_on : ∃ m m₁ m₂ m₃ m₄, Represents m [serverMessage, titled 0] ∧
    detachItemFromObject 8 5 "server_output_json" m = some (some 7, m₁) ∧
    delete 8 (some 5) m₁ = some m₂ ∧
    addItemToObject 8 0 "server_output_json" 7 m₂ = some m₃ ∧
    (∃ cell, m₃ 0 = some cell ∧ Reads m₃ cell.data
      (.object [("title", .string "evening"), ("server_output_json",
        .object [("title", .string "noon"), ("bytes", .number 131072 131072)])])) ∧
    delete 8 (some 0) m₃ = some m₄ ∧ Represents m₄ [] := by
  obtain ⟨m₀, -, hrepresents₀⟩ := represents_empty.run (uses_titled 0) (Nat.le_of_eq rfl)
  obtain ⟨m, -, hrepresents⟩ := hrepresents₀.run uses_serverMessage (Nat.le_of_eq rfl)
  obtain ⟨m₁, m₂, m₃, m₄, hdetach, hdelete, -, -, -, hadd, hread, hfree, hrest⟩ :=
    @output_handed_on m [] (fun _ => .null) 8 5 0 _ _ _ _ _ serverDocument
      hrepresents rfl (by decide) (by decide) rfl rfl rfl rfl (by decide)
  exact ⟨m, m₁, m₂, m₃, m₄, hrepresents, hdetach, hdelete, hadd, hread, hfree, hrest⟩

end IperfRuntime.ItemMessages
