import IperfRuntime.NumberAccuracy
import IperfRuntime.PrintfText
import IperfRuntime.ResultsExchange

/-!
# Objects from a format

`iperf_json_printf` with the array in which it puts names together. A format that announces
members one after the other, each with a name, a colon and a conversion, builds these
members in this order, wherever its blanks stand, if and only if the array has room for
every name. Names of a hundred characters and more, which the array cannot hold, have no
result.
-/

namespace IperfRuntime.JsonPrintf

open JsonTree JsonNumbers NumberAccuracy PrintfText ResultsExchange

/-- An argument behind the format, with the type it is passed as. -/
inductive Argument where
  | int (n : ℤ)
  | int64 (n : ℤ)
  | double (x : Dbl)
  /-- A `char *`, which can be a null pointer. -/
  | text (s : Option String)
  deriving DecidableEq

/-- `cJSON_CreateNumber`; the conversion to the integer slot is defined for the numbers that
`int64_t` holds. -/
def cjsonCreateNumber : Dbl → Option CJson
  | .finite q =>
    if -2 ^ 63 ≤ q.num.tdiv q.den ∧ q.num.tdiv q.den < 2 ^ 63 then some (createDouble q) else none
  | .inf => none
  | .nan => none

/-- The formatting characters. -/
def conversions : List Char := ['b', 'd', 'f', 's']

/-- The item for a formatting character; an argument of another type is undefined. -/
def convert : Char → Argument → Option CJson
  | 'b', .int n => some (if n = 0 then .false else .true)
  | 'd', .int64 n => cjsonCreateNumber (.finite (fl n))
  | 'f', .double x => cjsonCreateNumber x
  | 's', .text (some s) => some (.string s)
  | _, _ => none

/-- The array `name`, whose bytes are not set at first, and the place of `np` in it. -/
structure NameBuffer where
  cells : List (Option Char)
  np : ℕ

/-- `*np = c`. -/
def NameBuffer.write (c : Char) (name : NameBuffer) : Option NameBuffer :=
  if name.np < name.cells.length then some { name with cells := name.cells.set name.np (some c) }
  else none

/-- `*np++ = c`. -/
def NameBuffer.put (c : Char) (name : NameBuffer) : Option NameBuffer :=
  (name.write c).map fun name => { name with np := name.np + 1 }

/-- The C string in an array. -/
def readName : List (Option Char) → Option (List Char)
  | [] => none
  | none :: _ => none
  | some c :: cells => if c = '\x00' then some [] else (readName cells).map (c :: ·)

/-- The loop over the format; without a result where the behaviour is undefined, and `none` as
the result where a null pointer is returned. -/
def printMembers : List Char → List Argument → NameBuffer → List (String × CJson) →
    Option (Option (List (String × CJson)))
  | [], _, _, members => some (some members)
  | ' ' :: format, arguments, name, members => printMembers format arguments name members
  | ':' :: format, arguments, name, members =>
    (name.write '\x00').bind fun name => printMembers format arguments name members
  | ['%'], _, _, _ => some none
  | '%' :: conversion :: format, arguments, name, members =>
    if conversion ∈ conversions then
      match arguments with
      | [] => none
      | argument :: arguments => do
        let j ← convert conversion argument
        let string ← readName name.cells
        printMembers format arguments { name with np := 0 } (members ++ [(String.ofList string, j)])
    else some none
  | c :: format, arguments, name, members =>
    (name.put c).bind fun name => printMembers format arguments name members

/-- `iperf_json_printf`: the members of the object. -/
def iperfJsonPrintf (format : String) (arguments : List Argument) :
    Option (Option (List (String × CJson))) :=
  printMembers format.toList arguments ⟨List.replicate 100 none, 0⟩ []

/-- The members that a format announces, `name` standing in front of it and `closed` when the
colon is behind the name. -/
def announced (closed : Bool) (name : List Char) : List Char → Option (List (List Char × Char))
  | [] => if closed = false ∧ name = [] then some [] else none
  | ' ' :: format => announced closed name format
  | ':' :: format => if closed then none else announced true name format
  | ['%'] => none
  | '%' :: conversion :: format =>
    if closed ∧ conversion ∈ conversions then
      (announced false [] format).map ((name, conversion) :: ·)
    else none
  | c :: format => if closed then none else announced false (name ++ [c]) format

/-- The members for announced names and conversions. -/
def built : List (List Char × Char) → List Argument → Option (List (String × CJson))
  | [], _ => some []
  | _ :: _, [] => none
  | (name, conversion) :: fields, argument :: arguments => do
    let j ← convert conversion argument
    let members ← built fields arguments
    some ((String.ofList name, j) :: members)

/-- What the array holds behind a part of a name. -/
structure Holds (closed : Bool) (name : List Char) (buffer : NameBuffer) : Prop where
  np : buffer.np = name.length
  size : buffer.cells.length = 100
  text : '\x00' ∉ name
  cells : ∃ rest, buffer.cells = name.map some ++ rest ∧
    (closed = true → rest.head? = some (some '\x00'))

variable {closed : Bool} {name : List Char} {buffer : NameBuffer} {c : Char}

/-- A name in the buffer is read up to its zero. -/
theorem readName_eq (h : '\x00' ∉ name) (rest : List (Option Char)) :
    readName (name.map some ++ some '\x00' :: rest) = some name := by
  induction name with
  | nil => rfl
  | cons c name ih =>
    have hc := List.ne_of_not_mem_cons h
    have hname := List.not_mem_of_not_mem_cons h
    rw [List.map_cons, List.cons_append, readName, if_neg (Ne.symm hc), ih hname, Option.map_some]

/-- Behind its colon a name is the string in the array. -/
theorem Holds.read (h : Holds true name buffer) : readName buffer.cells = some name := by
  obtain ⟨rest, hcells, hhead⟩ := h.cells
  obtain ⟨tail, rfl⟩ := List.head?_eq_some_iff.mp (hhead rfl)
  rw [hcells, readName_eq h.text]

/-- A name that is held is shorter than the buffer of a hundred characters. -/
theorem Holds.short (h : Holds true name buffer) : name.length < 100 := by
  obtain ⟨rest, hcells, hhead⟩ := h.cells
  obtain ⟨tail, rfl⟩ := List.head?_eq_some_iff.mp (hhead rfl)
  have hsize := h.size
  rw [hcells, List.length_append, List.length_map, List.length_cons] at hsize
  omega

/-- The next name starts over. -/
theorem Holds.restart (h : Holds closed name buffer) : Holds false [] { buffer with np := 0 } where
  np := rfl
  size := h.size
  text := List.not_mem_nil
  cells := ⟨buffer.cells, rfl, nofun⟩

/-- A write lands behind the name, as long as the array has room. -/
theorem Holds.write (h : Holds closed name buffer) (c : Char) :
    if name.length < 100 then
      ∃ rest, buffer.write c = some { buffer with cells := name.map some ++ some c :: rest } ∧
        (name.map some ++ some c :: rest).length = 100
    else buffer.write c = none := by
  obtain ⟨rest, hcells, -⟩ := h.cells
  have hsize := h.size
  unfold NameBuffer.write
  rw [h.np, hsize]
  split
  · rename_i hroom
    rw [hcells, List.length_append, List.length_map] at hsize
    cases rest with
    | nil =>
      rw [List.length_nil] at hsize
      omega
    | cons x rest =>
      refine ⟨rest, ?_, ?_⟩
      · rw [hcells, List.set_append_right _ _ (by rw [List.length_map]), List.length_map,
          Nat.sub_self, List.set_cons_zero]
      · rw [List.length_append, List.length_map]
        exact hsize
  · rfl

/-- With room left the name can be closed. -/
theorem Holds.close (h : Holds false name buffer) (hroom : name.length < 100) :
    ∃ buffer', buffer.write '\x00' = some buffer' ∧ Holds true name buffer' := by
  have hwrite := h.write '\x00'
  rw [if_pos hroom] at hwrite
  obtain ⟨rest, heq, hsize⟩ := hwrite
  exact ⟨_, heq, h.np, hsize, h.text, _, rfl, fun _ => rfl⟩

/-- With room left a further character can be put behind it. -/
theorem Holds.put (h : Holds false name buffer) (hroom : name.length < 100) (hc : c ≠ '\x00') :
    ∃ buffer', buffer.put c = some buffer' ∧ Holds false (name ++ [c]) buffer' := by
  have hwrite := h.write c
  rw [if_pos hroom] at hwrite
  obtain ⟨rest, heq, hsize⟩ := hwrite
  refine ⟨{ cells := name.map some ++ some c :: rest, np := buffer.np + 1 }, ?_, ?_, hsize, ?_, ?_⟩
  · unfold NameBuffer.put
    rw [heq, Option.map_some]
  · show buffer.np + 1 = (name ++ [c]).length
    rw [h.np, List.length_append, List.length_singleton]
  · intro hmem
    rcases List.mem_append.mp hmem with hold | hnew
    · exact h.text hold
    · exact hc (List.mem_singleton.mp hnew).symm
  · exact ⟨rest, by simp, nofun⟩

/-- A name that is begun is the beginning of the first announced one. -/
theorem announced_begun {format : List Char} {fields : List (List Char × Char)}
    (h : announced closed name format = some fields) (hbegun : closed = true ∨ name ≠ []) :
    ∃ field rest, fields = field :: rest ∧ name <+: field.1 := by
  fun_induction announced closed name format with
  | case1 closed name =>
    rename_i hnew
    rcases hbegun with hclosed | hname
    · simp [hclosed] at hnew
    · exact absurd hnew.2 hname
  | case2 => cases h
  | case3 closed name format ih => exact ih h hbegun
  | case4 => cases h
  | case5 closed name format hopen ih => exact ih h (Or.inl rfl)
  | case6 => cases h
  | case7 closed name conversion format hconversion =>
    obtain ⟨rest, -, rfl⟩ := Option.map_eq_some_iff.mp h
    exact ⟨_, rest, rfl, List.prefix_refl name⟩
  | case8 => cases h
  | case9 => cases h
  | case10 =>
    rename_i ih
    obtain ⟨field, rest, hfields, hbegins⟩ := ih h (Or.inr (by simp))
    exact ⟨field, rest, hfields, (List.prefix_append _ _).trans hbegins⟩

/-- A conversion takes the next argument. -/
theorem printMembers_conversion {conversion : Char} (h : conversion ∈ conversions)
    (format : List Char) (argument : Argument) (arguments : List Argument)
    (members : List (String × CJson)) :
    printMembers ('%' :: conversion :: format) (argument :: arguments) buffer members =
      (convert conversion argument).bind fun j => (readName buffer.cells).bind fun string =>
        printMembers format arguments { buffer with np := 0 }
          (members ++ [(String.ofList string, j)]) :=
  if_pos h

/-- A field whose name has no room in the array. -/
theorem not_short {field : List Char × Char} {rest : List (List Char × Char)}
    (hbegins : name <+: field.1) (hlong : ¬name.length < 100) :
    ¬∀ other ∈ field :: rest, other.1.length < 100 := by
  intro hshort
  have hfield := hshort field List.mem_cons_self
  have hlength := hbegins.length_le
  omega

/-- The loop from any place in a format builds what the rest of the format announces, and
fails exactly if a name does not fit. The induction follows the reading of the announced
names. -/
theorem printMembers_eq {format : List Char} {fields : List (List Char × Char)}
    (h : announced closed name format = some fields) (hnul : '\x00' ∉ format)
    (hb : Holds closed name buffer) (arguments : List Argument) (members : List (String × CJson)) :
    printMembers format arguments buffer members =
      if ∀ field ∈ fields, field.1.length < 100 then
        (built fields arguments).map fun added => some (members ++ added)
      else none := by
  fun_induction announced closed name format generalizing buffer arguments members fields with
  | case1 closed name =>
    cases h
    rw [printMembers, if_pos (by simp), built, Option.map_some, List.append_nil]
  | case2 => cases h
  | case3 closed name format ih =>
    rw [printMembers]
    exact ih h (List.not_mem_of_not_mem_cons hnul) hb arguments members
  | case4 => cases h
  | case5 closed name format hopen ih =>
    have hopen : closed = false := by simpa using hopen
    subst hopen
    rw [printMembers]
    by_cases hroom : name.length < 100
    · obtain ⟨buffer', hwrite, hclosed⟩ := hb.close hroom
      rw [hwrite, Option.bind_some]
      exact ih h (List.not_mem_of_not_mem_cons hnul) hclosed arguments members
    · have hwrite := hb.write '\x00'
      rw [if_neg hroom] at hwrite
      obtain ⟨field, rest, rfl, hbegins⟩ := announced_begun h (Or.inl rfl)
      rw [hwrite, Option.bind_none, if_neg (not_short hbegins hroom)]
  | case6 => cases h
  | case7 closed name conversion format hconversion ih =>
    obtain ⟨hclosed, hconversion⟩ := hconversion
    subst hclosed
    obtain ⟨rest, hrest, rfl⟩ := Option.map_eq_some_iff.mp h
    cases arguments with
    | nil =>
      have hmissing : printMembers ('%' :: conversion :: format) [] buffer members = none :=
        if_pos hconversion
      rw [hmissing, built, Option.map_none, ite_self]
    | cons argument arguments =>
      have hformat := List.not_mem_of_not_mem_cons (List.not_mem_of_not_mem_cons hnul)
      have hshort := hb.short
      rw [printMembers_conversion hconversion, built]
      cases hj : convert conversion argument with
      | none => simp
      | some j =>
        have hnext := ih hrest hformat hb.restart arguments
          (members ++ [(String.ofList name, j)])
        rw [Option.bind_some, hb.read, Option.bind_some, hnext]
        simp only [List.forall_mem_cons, hshort, true_and]
        cases built rest arguments with
        | none => rfl
        | some added => simp
  | case8 => cases h
  | case9 => cases h
  | case10 closed name c format hblank hcolon hend hpercent hopen ih =>
    have hopen : closed = false := by simpa using hopen
    subst hopen
    have hc : c ≠ '\x00' := Ne.symm (List.ne_of_not_mem_cons hnul)
    rw [printMembers]
    · by_cases hroom : name.length < 100
      · obtain ⟨buffer', hput, hheld⟩ := hb.put hroom hc
        rw [hput, Option.bind_some]
        exact ih h (List.not_mem_of_not_mem_cons hnul) hheld arguments members
      · have hwrite := hb.write c
        rw [if_neg hroom] at hwrite
        obtain ⟨field, rest, rfl, hbegins⟩ := announced_begun h (Or.inr (by simp))
        have hput : buffer.put c = none := by rw [NameBuffer.put, hwrite, Option.map_none]
        have hname : name <+: field.1 := (List.prefix_append _ _).trans hbegins
        rw [hput, Option.bind_none, if_neg (not_short hname hroom)]
    · exact hblank
    · exact hcolon
    · exact hend
    · exact hpercent

/-- A format that announces members builds them in their order, if the array has room for every
name and the arguments have the types that their conversions take. -/
theorem iperfJsonPrintf_eq {format : String} {fields : List (List Char × Char)}
    (h : announced false [] format.toList = some fields) (hnul : '\x00' ∉ format.toList)
    (arguments : List Argument) :
    iperfJsonPrintf format arguments =
      if ∀ field ∈ fields, field.1.length < 100 then (built fields arguments).map some
        else none := by
  have hb : Holds false [] (⟨List.replicate 100 none, 0⟩ : NameBuffer) :=
    ⟨rfl, List.length_replicate, List.not_mem_nil, _, rfl, nofun⟩
  exact printMembers_eq h hnul hb arguments []

/-- A format that announces the given members, with names for which the array has room. -/
def AnnouncesText (format : List Char) (fields : List (String × Char)) : Prop :=
  announced false [] format = some (fields.map fun field => (field.1.toList, field.2)) ∧
    '\x00' ∉ format ∧ ∀ field ∈ fields, field.1.toList.length < 100

instance (format : List Char) (fields : List (String × Char)) :
    Decidable (AnnouncesText format fields) :=
  inferInstanceAs (Decidable (_ ∧ _ ∧ _))

/-- So does a string. -/
def Announces (format : String) (fields : List (String × Char)) : Prop :=
  AnnouncesText format.toList fields

/-- What the characters of a format announce the format announces. -/
theorem announces_ofList {format : List Char} {fields : List (String × Char)}
    (h : AnnouncesText format fields) : Announces (String.ofList format) fields := by
  unfold Announces
  rw [String.toList_ofList]
  exact h

/-- A format may be put together from parts. -/
theorem announces_append {front back : List Char} {fields : List (String × Char)}
    (h : AnnouncesText (front ++ back) fields) :
    Announces (String.ofList front ++ String.ofList back) fields := by
  unfold Announces
  rw [String.toList_append, String.toList_ofList, String.toList_ofList]
  exact h

/-- The formatting character for an argument. -/
def Argument.conversion : Argument → Char
  | .int _ => 'b'
  | .int64 _ => 'd'
  | .double _ => 'f'
  | .text _ => 's'

/-- Members with the arguments that they are made of. -/
abbrev Entry := List (String × Argument)

/-- An integer that a `double` holds comes as it is. -/
theorem convert_int64 {n : ℤ} (h : |n| ≤ 2 ^ 53) :
    convert 'd' (.int64 n) = some (createNumber n) := by
  have hbounds := abs_le.mp h
  have htrunc : ((n : ℚ).num.tdiv (n : ℚ).den) = n := by
    rw [Rat.num_intCast, Rat.den_intCast, Nat.cast_one, Int.tdiv_one]
  have hrange : -2 ^ 63 ≤ (n : ℚ).num.tdiv (n : ℚ).den ∧ (n : ℚ).num.tdiv (n : ℚ).den < 2 ^ 63 := by
    rw [htrunc]
    omega
  have hconvert : convert 'd' (.int64 n) = cjsonCreateNumber (.finite (fl n)) := rfl
  rw [hconvert, fl_intCast h]
  unfold cjsonCreateNumber
  dsimp only
  rw [if_pos hrange, createDouble, createNumber, htrunc]

/-- The items of an entry. -/
def Entry.items : Entry → Option (List (String × CJson))
  | [] => some []
  | (name, argument) :: entry =>
    (convert argument.conversion argument).bind fun j =>
      (Entry.items entry).map ((name, j) :: ·)

/-- The names of an entry with their formatting characters. -/
def Entry.fields (entry : Entry) : List (String × Char) :=
  entry.map fun member => (member.1, member.2.conversion)

/-- Building from the fields of an entry gives its items. -/
theorem built_entry (entry : Entry) :
    built (entry.fields.map fun field => (field.1.toList, field.2)) (entry.map Prod.snd) =
      entry.items := by
  induction entry with
  | nil => rfl
  | cons member entry ih =>
    obtain ⟨name, argument⟩ := member
    have hbuilt : built ((Entry.fields ((name, argument) :: entry)).map
        fun field => (field.1.toList, field.2)) (((name, argument) :: entry).map Prod.snd) =
          (convert argument.conversion argument).bind fun j =>
            (built ((Entry.fields entry).map fun field => (field.1.toList, field.2))
              (entry.map Prod.snd)).bind fun members =>
                some ((String.ofList name.toList, j) :: members) := rfl
    rw [hbuilt, ih, Entry.items, String.ofList_toList]
    cases convert argument.conversion argument with
    | none => rfl
    | some j =>
      cases Entry.items entry with
      | none => rfl
      | some members => rfl

/-- A format that announces an entry builds the items of the entry. -/
theorem iperfJsonPrintf_entry {format : String} {entry : Entry}
    (h : Announces format entry.fields) :
    iperfJsonPrintf format (entry.map Prod.snd) = entry.items.map some := by
  obtain ⟨hannounced, hnul, hshort⟩ := h
  have hroom : ∀ field ∈ (Entry.fields entry).map fun field => (field.1.toList, field.2),
      field.1.length < 100 := by
    intro field hfield
    obtain ⟨own, hown, rfl⟩ := List.mem_map.mp hfield
    exact hshort own hown
  rw [iperfJsonPrintf_eq hannounced hnul, if_pos hroom, built_entry]

/-- What it means that members are built: the names are the announced ones, in order, and each
value is its argument under its conversion. -/
theorem built_iff {fields : List (List Char × Char)} {arguments : List Argument}
    {members : List (String × CJson)} :
    built fields arguments = some members ↔
      members.map Prod.fst = fields.map (fun field => String.ofList field.1) ∧
        ∀ (i : ℕ) (field : List Char × Char), fields[i]? = some field →
          (arguments[i]?).bind (convert field.2) = (members[i]?).map Prod.snd := by
  induction fields generalizing arguments members with
  | nil =>
    rw [built]
    constructor
    · intro h
      cases h
      exact ⟨rfl, nofun⟩
    · rintro ⟨hnames, -⟩
      rw [List.map_eq_nil_iff.mp hnames]
  | cons field fields ih =>
    obtain ⟨name, conversion⟩ := field
    cases arguments with
    | nil =>
      rw [built]
      constructor
      · intro h
        cases h
      · rintro ⟨hnames, hitems⟩
        obtain ⟨member, rest, rfl, -, -⟩ := List.map_eq_cons_iff.mp hnames
        have hfirst := hitems 0 _ rfl
        cases hfirst
    | cons argument arguments =>
      have hbuilt : built ((name, conversion) :: fields) (argument :: arguments) =
          (convert conversion argument).bind fun j => (built fields arguments).bind fun members =>
            some ((String.ofList name, j) :: members) := rfl
      rw [hbuilt]
      constructor
      · intro h
        obtain ⟨j, hj, h⟩ := Option.bind_eq_some_iff.mp h
        obtain ⟨rest, hrest, h⟩ := Option.bind_eq_some_iff.mp h
        cases h
        obtain ⟨hnames, hitems⟩ := ih.mp hrest
        refine ⟨by rw [List.map_cons, List.map_cons, hnames], fun i field hfield => ?_⟩
        cases i with
        | zero =>
          cases hfield
          exact hj
        | succ i => exact hitems i field hfield
      · rintro ⟨hnames, hitems⟩
        obtain ⟨member, rest, rfl, hname, hrest⟩ := List.map_eq_cons_iff.mp hnames
        have hfirst : convert conversion argument = some member.2 := hitems 0 _ rfl
        have hbelow : built fields arguments = some rest :=
          ih.mpr ⟨hrest, fun i field hfield => hitems (i + 1) field hfield⟩
        have hname : member.1 = String.ofList name := hname
        rw [hfirst, Option.bind_some, hbelow, Option.bind_some, ← hname]

/-- An object comes of a format that announces members exactly if the array has room for every
name and every conversion meets an argument of its type; it has the announced names in their
order, each with the item for its argument, wherever the blanks of the format stand. Integer
arguments fit `int64_t` and text arguments are not `NULL`. -/
theorem object_announced_iff {format : String} {fields : List (List Char × Char)}
    (h : announced false [] format.toList = some fields) (hnul : '\x00' ∉ format.toList)
    (arguments : List Argument) (members : List (String × CJson)) :
    iperfJsonPrintf format arguments = some (some members) ↔
      (∀ field ∈ fields, field.1.length < 100) ∧
        members.map Prod.fst = fields.map (fun field => String.ofList field.1) ∧
        ∀ (i : ℕ) (field : List Char × Char), fields[i]? = some field →
          (arguments[i]?).bind (convert field.2) = (members[i]?).map Prod.snd := by
  rw [iperfJsonPrintf_eq h hnul, ← built_iff]
  constructor
  · intro heq
    split at heq
    · rename_i hshort
      obtain ⟨added, hadded, hsame⟩ := Option.map_eq_some_iff.mp heq
      cases hsame
      exact ⟨hshort, hadded⟩
    · cases heq
  · rintro ⟨hshort, hbuilt⟩
    rw [if_pos hshort, hbuilt, Option.map_some]

/-- The call that stands as an example above the routine. -/
theorem sampleCall_builds :
    iperfJsonPrintf "foo: %b  bar: %d  bletch: %f  eep: %s"
        [.int 1, .int64 (-7), .double (.finite (1 / 2)), .text (some "eep")] =
      some (some [("foo", .true), ("bar", createNumber (-7)), ("bletch", createDouble (1 / 2)),
        ("eep", .string "eep")]) := by
  have hfields : announced false [] "foo: %b  bar: %d  bletch: %f  eep: %s".toList =
      some [("foo".toList, 'b'), ("bar".toList, 'd'), ("bletch".toList, 'f'),
          ("eep".toList, 's')] := by
    decide +kernel
  refine (object_announced_iff hfields (by decide +kernel) _ _).mpr ⟨by decide +kernel, rfl, ?_⟩
  rintro (_ | _ | _ | _ | i) field hfield
  · cases hfield
    rfl
  · cases hfield
    exact convert_int64 (by decide)
  · cases hfield
    exact if_pos (by decide +kernel)
  · cases hfield
    rfl
  · cases hfield

end IperfRuntime.JsonPrintf
