import IperfRuntime.JsonFidelity

/-!
# The blocks of the printer

The sizes that `print_number`, `print_string_ptr`, `print_array` and `print_object` compute
before they write, against what they write. The lengths are added up in an `int`, so a text
must stay well below 2³¹ bytes. The arrays of pointers to the printed parts have one for each
child and are not modelled, nor is `print_value` with a buffer, which nothing calls.
-/

namespace IperfRuntime.JsonBuffers

open ByteOrder JsonTree ServerOutput PrintfText PrintedNumbers UnitFormats JsonNumbers JsonStrings
  JsonText SignificandRounding NumberAccuracy JsonRoundTrip JsonFidelity TestParameters

/-- A block that holds its text with the terminator, and is not much larger than it has to be. -/
structure Block.Fits (b : Block) : Prop where
  room : b.text.length + 1 ≤ b.size
  bounded : b.size ≤ 2 * b.text.length + 64

/-- An integer needs its digits and a sign. -/
theorem length_intText (i : ℤ) : (intText i).length ≤ (natText i.natAbs).length + 1 := by
  unfold intText
  split
  · rw [List.length_cons]
  · omega

/-- A number below `10 ^ k` has at most `k` digits. -/
theorem length_natText_le {n k : ℕ} (hk : 0 < k) (h : n < 10 ^ k) : (natText n).length ≤ k :=
  (Nat.length_toDigits_le_iff (by decide) hk).mpr h

/-- An integer that is printed has twenty digits at most. -/
theorem length_shownInteger {i : ℤ} {d : ℚ} (h : showsInteger i d) :
    (intText i).length ≤ 21 := by
  have hdigits := length_natText_le (k := 20) (by decide) (natAbs_lt_of_shows h)
  have hlength := length_intText i
  omega

/-- In fixed point it needs a sign, those digits, a point and the places. -/
theorem length_fixedText_le (precision : ℕ) {d : ℚ} {k : ℕ} (hk : 0 < k)
    (h : scaled precision d < 10 ^ (precision + k)) :
    (fixedText precision d).length ≤ 1 + k + (precision + 1) := by
  have hlength := length_scaledText h hk
  unfold fixedText
  split
  · rw [List.length_cons]
    split at hlength
    · omega
    · omega
  · split at hlength
    · omega
    · omega

/-- The exponent of a normal `double` has three digits at most. -/
theorem length_exponent {d : ℚ} (hlow : 1 / 2 ^ 1022 ≤ |d|) (hd : FiniteDouble d) :
    (zeroPadded 2 (sevenDigits d).2.natAbs).length ≤ 3 := by
  have hne : d ≠ 0 := abs_pos.mp (lt_of_lt_of_le (by positivity) hlow)
  have hhigh := log_le_of_finite hne hd
  have hlower := le_log_of_normal hlow
  obtain ⟨hleast, hmost⟩ := sevenDigits_exponent d
  have hdigits : (natText (sevenDigits d).2.natAbs).length ≤ 3 :=
    length_natText_le (by decide) (by omega)
  unfold zeroPadded
  rw [List.length_append, List.length_replicate]
  omega

/-- In scientific notation a finite double needs at most fourteen characters. -/
theorem length_scientificText {d : ℚ} (hlow : 1 / 2 ^ 1022 ≤ |d|) (hd : FiniteDouble d) :
    (scientificText d).length ≤ 14 := by
  have hne : d ≠ 0 := abs_pos.mp (lt_of_lt_of_le (by positivity) hlow)
  have hseven := (sevenDigits_error hne).1
  have hdigits : (scaledText 6 (sevenDigits d).1).length ≤ 1 + 7 :=
    length_scaledText hseven Nat.one_pos
  have hexponent := length_exponent hlow hd
  have hsign : (if d < 0 then ['-'] else []).length ≤ 1 := by
    split
    · exact le_rfl
    · exact Nat.zero_le _
  unfold scientificText
  rw [List.length_append, List.length_append, List.length_cons, List.length_cons]
  omega

/-- The sixty-four bytes of a number are never exceeded, whatever format is chosen; zero has
two bytes of its own. -/
theorem length_printNumber {i : ℤ} {d : ℚ} (hd : FiniteDouble d) :
    (printNumber i d).length + 1 ≤ if d = 0 then 2 else 64 := by
  unfold printNumber
  split
  · exact le_rfl
  split
  · rename_i hshows
    have hlength := length_shownInteger hshows
    omega
  split
  · decide
  rename_i hnormal
  rw [not_lt] at hnormal
  split
  · rename_i hwhole
    have hscaled : scaled 0 d < 10 ^ (0 + 61) := scaled_lt_of_whole hwhole.1 hwhole.2
    have hlength := length_fixedText_le 0 (by decide) hscaled
    omega
  split
  · have hlength := length_scientificText hnormal hd
    omega
  · rename_i hrange
    have hle : |d| ≤ 10 ^ 9 := not_lt.mp fun hlt => hrange (Or.inr hlt)
    have hscaled : scaled 6 |d| ≤ 10 ^ 15 := by
      refine scaled_le (abs_nonneg d) ?_
      push_cast
      linarith
    rw [scaled_abs] at hscaled
    have hlength := length_fixedText_le 6 (by decide)
      (hscaled.trans_lt (by decide : 10 ^ 15 < 10 ^ (6 + 10)))
    omega

/-- White space is only there when the text is formatted. -/
theorem length_styled (fmt : Bool) (space : List UInt8) :
    (styled fmt space).length = if fmt then space.length else 0 := by
  cases fmt with
  | true => rfl
  | false => rfl

/-- As long as the sum fits into an `int`, the loop computes it. -/
theorem addLengths_eq {α : Type*} (length : α → ℕ) {start : ℕ} {items : List α}
    (h : start + (items.map length).sum < 2 ^ 31) :
    addLengths length start items = (start + (items.map length).sum : ℕ) := by
  unfold addLengths
  rw [toInt_natCast (by omega)]
  induction items generalizing start with
  | nil => rfl
  | cons item items ih =>
    rw [List.map_cons, List.sum_cons] at h ⊢
    have hstep : toInt ((start : ℤ) + length item) = (start + length item : ℕ) := by
      rw [← Nat.cast_add]
      exact toInt_natCast (by omega)
    rw [List.foldl_cons, hstep, ih (by omega), Nat.add_assoc]

/-- A block of a size that an `int` counts. -/
theorem mallocSize_addLengths {α : Type*} (length : α → ℕ) {start : ℕ} {items : List α}
    (h : start + (items.map length).sum < 2 ^ 31) :
    mallocSize (addLengths length start items) = start + (items.map length).sum := by
  rw [addLengths_eq length h, mallocSize_natCast h]

/-- Every entry of an array but the last is followed by a comma. -/
theorem length_joinEntries (fmt : Bool) {entries : List Block} (h : entries ≠ []) :
    (joinEntries fmt entries).length + 1 + (if fmt then 1 else 0) + entries.length =
      (entries.map (entryLength fmt)).sum := by
  induction entries with
  | nil => exact absurd rfl h
  | cons entry entries ih =>
    have hentry : entryLength fmt entry = entry.text.length + 2 + if fmt then 1 else 0 := rfl
    cases entries with
    | nil =>
      rw [joinEntries, List.map_cons, List.sum_cons, List.map_nil, List.sum_nil,
        List.length_singleton]
      omega
    | cons next entries =>
      have hrec := ih (List.cons_ne_nil _ _)
      have hstyled := length_styled fmt [32]
      rw [List.length_singleton] at hstyled
      rw [joinEntries, List.map_cons, List.sum_cons, ← hrec]
      · simp only [List.length_append, List.length_cons, hstyled]
        omega
      · exact List.cons_ne_nil _ _

/-- Joined entries take at least a separator each. -/
theorem length_le_joinEntries (fmt : Bool) (entries : List Block) :
    entries.length ≤ (joinEntries fmt entries).length + 1 := by
  induction entries with
  | nil => exact Nat.zero_le _
  | cons entry entries ih =>
    cases entries with
    | nil => exact Nat.le_add_left 1 _
    | cons next entries =>
      rw [joinEntries]
      · simp only [List.length_append, List.length_cons] at ih ⊢
        omega
      · exact List.cons_ne_nil _ _

/-- A text of such a length keeps the sizes of its blocks within an `int`. -/
def Counted (text : List UInt8) : Prop := 2 * text.length + 64 < 2 ^ 31

/-- The block of an array is larger than the array by a byte for each entry. -/
theorem printArray_fits {fmt : Bool} {entries : List Block}
    (h : Counted (printArray fmt entries).text) : Block.Fits (printArray fmt entries) := by
  unfold printArray at h ⊢
  split
  · exact ⟨le_rfl, by decide⟩
  · rename_i hne
    rw [if_neg hne] at h
    have hsum := length_joinEntries fmt hne
    have hcount := length_le_joinEntries fmt entries
    have hstyle : (if fmt then 1 else 0) ≤ 1 := by
      cases fmt with
      | true => exact le_rfl
      | false => exact Nat.zero_le 1
    unfold Counted at h
    simp only [List.length_append, List.length_cons] at h
    have hsize := @mallocSize_addLengths _ (entryLength fmt) 5 entries (by omega)
    refine ⟨?_, ?_⟩
    · dsimp only
      rw [List.length_append, List.length_cons, List.length_singleton, hsize, ← hsum]
      omega
    · dsimp only
      rw [List.length_append, List.length_cons, List.length_singleton, hsize, ← hsum]
      omega

/-- Every member of an object but the last is followed by a comma, and each has its colon and,
if formatted, its indentation. -/
theorem length_joinMembers (fmt : Bool) (depth : ℕ) {members : List (Block × Block)}
    (h : members ≠ []) :
    (joinMembers fmt depth members).length + 1 = (members.map (memberLength fmt depth)).sum := by
  induction members with
  | nil => exact absurd rfl h
  | cons m members ih =>
    obtain ⟨name, entry⟩ := m
    have htabs := length_styled fmt (List.replicate depth 9)
    have htab := length_styled fmt [9]
    have hline := length_styled fmt [10]
    rw [List.length_replicate] at htabs
    rw [List.length_singleton] at htab hline
    have hmember : memberLength fmt depth (name, entry) =
        entry.text.length + name.text.length + 2 + if fmt then 2 + depth else 0 := rfl
    rw [joinMembers, List.map_cons, List.sum_cons, hmember]
    simp only [List.length_append, List.length_cons, htabs, htab, hline]
    cases members with
    | nil =>
      rw [if_pos rfl, joinMembers, List.map_nil, List.sum_nil, List.length_nil]
      cases fmt with
      | true =>
        simp only [if_true]
        omega
      | false =>
        simp only [Bool.false_eq_true, if_false]
        omega
    | cons next members =>
      have hrec := ih (List.cons_ne_nil _ _)
      rw [if_neg (List.cons_ne_nil _ _), ← hrec, List.length_singleton]
      cases fmt with
      | true =>
        simp only [if_true]
        omega
      | false =>
        simp only [Bool.false_eq_true, if_false]
        omega

/-- The empty object takes the bytes that are allocated for it. -/
theorem length_emptyObject (fmt : Bool) (depth : ℕ) :
    (byte '{' :: styled fmt (10 :: List.replicate depth 9) ++ [byte '}']).length + 1 =
      if fmt then depth + 4 else 3 := by
  cases fmt with
  | true =>
    simp only [styled, if_true, List.length_append, List.length_cons, List.length_replicate,
      List.length_nil]
  | false => rfl

/-- The block of an object is larger than the object by five bytes, as long as the sum of the
lengths is an `int`. -/
theorem printObject_fits {fmt : Bool} {depth : ℕ} {members : List (Block × Block)}
    (h : Counted (printObject fmt depth members).text) :
    Block.Fits (printObject fmt depth members) := by
  unfold printObject Counted at h
  unfold printObject
  split
  · rename_i hempty
    rw [if_pos hempty] at h
    dsimp only at h
    have hlength := length_emptyObject fmt depth
    have hsize : mallocSize (toInt (if fmt then depth + 4 else 3 : ℕ)) =
        if fmt then depth + 4 else 3 := by
      rw [← hlength, toInt_natCast (by omega), mallocSize_natCast (by omega)]
    refine ⟨?_, ?_⟩
    · dsimp only
      rw [hsize, ← hlength]
    · dsimp only
      rw [hsize, ← hlength]
      omega
  · rename_i hne
    rw [if_neg hne] at h
    have hsum := length_joinMembers fmt (depth + 1) hne
    have htabs := length_styled fmt (List.replicate depth 9)
    have hline := length_styled fmt [10]
    rw [List.length_replicate] at htabs
    rw [List.length_singleton] at hline
    simp only [List.length_append, List.length_cons, List.length_nil, htabs, hline] at h
    have hindent : (if fmt then depth + 1 else 0) =
        (if fmt then depth else 0) + if fmt then 1 else 0 := by
      cases fmt with
      | true => rfl
      | false => rfl
    have hsize := @mallocSize_addLengths _ (memberLength fmt (depth + 1))
      (7 + if fmt then depth + 1 else 0) members (by omega)
    refine ⟨?_, ?_⟩
    · dsimp only
      simp only [List.length_append, List.length_cons, List.length_nil, htabs, hline, hsize, ← hsum]
      omega
    · dsimp only
      simp only [List.length_append, List.length_cons, List.length_nil, htabs, hline, hsize, ← hsum]
      omega

mutual

/-- The blocks that `print_value` allocates for an item, for what is below it and for the names
there. -/
def blocks (fmt : Bool) (depth : ℕ) : CJson → List Block
  | .null => [strdupLiteral "null"]
  | .false => [strdupLiteral "false"]
  | .true => [strdupLiteral "true"]
  | .number valueint valuedouble => [numberBlock valueint valuedouble]
  | .string valuestring => [printStringPtr (toBytes valuestring)]
  | .array children =>
    printValue fmt depth (.array children) :: entryBlocks fmt (depth + 1) children
  | .object members =>
    printValue fmt depth (.object members) :: memberBlocks fmt (depth + 1) members

/-- The blocks of the children of an array. -/
def entryBlocks (fmt : Bool) (depth : ℕ) : List CJson → List Block
  | [] => []
  | child :: children => blocks fmt depth child ++ entryBlocks fmt depth children

/-- The blocks of the children of an object. -/
def memberBlocks (fmt : Bool) (depth : ℕ) : List (String × CJson) → List Block
  | [] => []
  | (name, child) :: members =>
    printStringPtr (toBytes name) :: blocks fmt depth child ++ memberBlocks fmt depth members

end

/-- The blocks of the elements are those of each element in turn. -/
theorem entryBlocks_eq (fmt : Bool) (depth : ℕ) (children : List CJson) :
    entryBlocks fmt depth children = children.flatMap (blocks fmt depth) := by
  induction children with
  | nil => rfl
  | cons child children ih => rw [entryBlocks, ih, List.flatMap_cons]

/-- Those of the members are the name and the value of each. -/
theorem memberBlocks_eq (fmt : Bool) (depth : ℕ) (members : List (String × CJson)) :
    memberBlocks fmt depth members =
      members.flatMap fun m => printStringPtr (toBytes m.1) :: blocks fmt depth m.2 := by
  induction members with
  | nil => rfl
  | cons m members ih =>
    obtain ⟨name, child⟩ := m
    rw [memberBlocks, ih, List.flatMap_cons]

/-- A string fits the block that `print_string_ptr` counts for it, as long as the count is an `int`.
-/
theorem printStringPtr_fits {str : List UInt8} (h : Counted (printStringPtr str).text) :
    Block.Fits (printStringPtr str) := by
  unfold Counted at h
  have hsize := @printStringPtr_size str (by omega)
  refine ⟨hsize.ge, ?_⟩
  rw [hsize]
  omega

/-- A number fits the block of its fixed size. -/
theorem numberBlock_fits {i : ℤ} {d : ℚ} (h : FiniteDouble d) : Block.Fits (numberBlock i d) := by
  have hlength := length_printNumber (i := i) h
  unfold numberBlock
  refine ⟨?_, ?_⟩
  · dsimp only
    unfold bytes
    rw [List.length_map]
    exact hlength
  · dsimp only
    split
    · omega
    · omega

/-- The name of a member is part of the text of its object. -/
theorem length_name_le {fmt : Bool} {depth : ℕ} {members : List (Block × Block)}
    {m : Block × Block} (h : m ∈ members) :
    m.1.text.length ≤ (printObject fmt depth members).text.length := by
  have hne : members ≠ [] := List.ne_nil_of_mem h
  have hle : (memberText fmt m).length ≤ (joined (styled fmt (10 :: List.replicate (depth + 1) 9))
      (members.map (memberText fmt))).length := length_le_joined (List.mem_map_of_mem h)
  have hmember : m.1.text.length ≤ (memberText fmt m).length := by
    unfold memberText
    simp only [List.length_append]
    omega
  unfold printObject
  rw [if_neg hne, joinMembers_eq fmt (depth + 1) hne]
  simp only [List.length_append]
  omega

/-- Whatever finite numbers a tree holds, as long as its text stays below 2³⁰ bytes every block
that `print_value` allocates on the way has room for the text that is written into it with its
terminator, and is at most twice as large as that text and sixty-four bytes more. -/
theorem printValue_fits (fmt : Bool) (depth : ℕ) {t : CJson}
    (h : Built (fun _ d => FiniteDouble d) t) (hsmall : Counted (printValue fmt depth t).text) :
    ∀ b ∈ blocks fmt depth t, Block.Fits b := by
  induction t using tree_induction generalizing depth with
  | null =>
    rw [blocks, List.forall_mem_singleton]
    exact ⟨by decide, by decide⟩
  | false =>
    rw [blocks, List.forall_mem_singleton]
    exact ⟨by decide, by decide⟩
  | true =>
    rw [blocks, List.forall_mem_singleton]
    exact ⟨by decide, by decide⟩
  | number i d =>
    cases h with
    | number h =>
      rw [blocks, List.forall_mem_singleton]
      exact numberBlock_fits h
  | string s =>
    rw [printValue] at hsmall
    rw [blocks, List.forall_mem_singleton]
    exact printStringPtr_fits hsmall
  | array children ih =>
    cases h with
    | array h =>
      rw [printValue, printEntries_eq] at hsmall
      rw [blocks, entryBlocks_eq, List.forall_mem_cons, printValue, printEntries_eq]
      refine ⟨printArray_fits hsmall, fun b hb => ?_⟩
      obtain ⟨c, hc, hb⟩ := List.mem_flatMap.mp hb
      have hle : (printValue fmt (depth + 1) c).text.length + 2 ≤
          (printArray fmt (children.map (printValue fmt (depth + 1)))).text.length :=
        length_le_printArray (List.mem_map_of_mem hc)
      refine ih c hc (depth + 1) (h c hc) ?_ b hb
      unfold Counted at hsmall ⊢
      omega
  | object members ih =>
    cases h with
    | object hnames hvalues =>
      rw [printValue, printMembers_eq] at hsmall
      rw [blocks, memberBlocks_eq, List.forall_mem_cons, printValue, printMembers_eq]
      refine ⟨printObject_fits hsmall, fun b hb => ?_⟩
      obtain ⟨m, hm, hb⟩ := List.mem_flatMap.mp hb
      have hmem : (printStringPtr (toBytes m.1), printValue fmt (depth + 1) m.2) ∈ members.map
          fun m => (printStringPtr (toBytes m.1), printValue fmt (depth + 1) m.2) :=
        List.mem_map.mpr ⟨m, hm, rfl⟩
      have hname := @length_name_le fmt depth _ _ hmem
      have hvalue := @length_le_printObject fmt depth _ _ hmem
      dsimp only at hname hvalue
      unfold Counted at hsmall
      rcases List.mem_cons.mp hb with rfl | hb
      · refine printStringPtr_fits ?_
        unfold Counted
        omega
      · refine ih m hm (depth + 1) (hvalues m hm) ?_ b hb
        unfold Counted
        omega

/-- An object with a fraction, which is printed with `%f`. -/
theorem thirds_fit :
    Block.Fits (printValue true 0 (.object [("third", .number 0 (1 / 3))])) ∧
      Block.Fits (printStringPtr (toBytes "third")) ∧ Block.Fits (numberBlock 0 (1 / 3)) := by
  have hfinite : FiniteDouble (1 / 3) := by
    unfold FiniteDouble
    rw [abs_of_pos (by norm_num)]
    exact lt_trans (by norm_num) (one_lt_pow₀ (by norm_num) (by norm_num : 1024 ≠ 0))
  have hbuilt : Built (fun _ d => FiniteDouble d) (.object [("third", .number 0 (1 / 3))]) :=
    Built.object (List.forall_mem_singleton.mpr (by decide))
      (List.forall_mem_singleton.mpr (Built.number hfinite))
  have hsmall : Counted (printValue true 0 (.object [("third", .number 0 (1 / 3))])).text := by
    unfold Counted
    decide +kernel
  have hfits := printValue_fits true 0 hbuilt hsmall
  rw [blocks, memberBlocks, memberBlocks, blocks] at hfits
  simp only [List.append_nil, List.forall_mem_cons] at hfits
  exact ⟨hfits.1, hfits.2.1, hfits.2.2.1⟩

end IperfRuntime.JsonBuffers
