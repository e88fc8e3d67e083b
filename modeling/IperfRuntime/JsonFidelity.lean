import IperfRuntime.JsonRoundTrip
import IperfRuntime.ResultsExchange

/-!
# What survives printing and parsing

The trees that the program builds, and how far the tree that is parsed from a printed text
agrees with the one that was printed. The length of a text is not bounded here; the code holds
it in an `int`, so what is said is about texts below 2³¹ bytes.
-/

namespace IperfRuntime.JsonFidelity

open ByteOrder JsonTree JsonFraming ServerOutput PrintfText JsonNumbers JsonStrings JsonText
  NumberAccuracy JsonRoundTrip ResultsExchange

/-- A string that a `char *` can hold: one character for each byte, no terminator inside. -/
def CText (s : String) : Prop := ∀ c ∈ s.toList, c.toNat ≠ 0 ∧ c.toNat < 256

instance (s : String) : Decidable (CText s) :=
  decidable_of_iff (s.toList.all fun c => c.toNat != 0 && decide (c.toNat < 256)) (by
    unfold CText
    simp)

/-- A text without zero bytes is a C text. -/
theorem cText_ofBytes {s : List UInt8} (h : 0 ∉ s) : CText (ofBytes s) := by
  intro c hc
  unfold ofBytes at hc
  rw [String.toList_ofList] at hc
  obtain ⟨b, hb, rfl⟩ := List.mem_map.mp hc
  have hlt := b.toNat_lt
  have hchar : (Char.ofNat b.toNat).toNat = b.toNat := by
    unfold Char.ofNat
    rw [dif_pos (Or.inl (by omega))]
    rfl
  rw [hchar]
  refine ⟨fun hzero => ?_, hlt⟩
  have hnul : b = 0 := UInt8.toNat_inj.mp hzero
  rw [hnul] at hb
  exact h hb

/-- A tree whose names and strings a `char *` can hold and whose numbers have a property. -/
inductive Built (number : ℤ → ℚ → Prop) : CJson → Prop
  | null : Built number .null
  | false : Built number .false
  | true : Built number .true
  | number {i : ℤ} {d : ℚ} (h : number i d) : Built number (.number i d)
  | string {s : String} (h : CText s) : Built number (.string s)
  | array {children : List CJson} (h : ∀ c ∈ children, Built number c) :
    Built number (.array children)
  | object {members : List (String × CJson)} (hnames : ∀ m ∈ members, CText m.1)
    (hvalues : ∀ m ∈ members, Built number m.2) : Built number (.object members)

/-- The integer slot is the truncated double, as `cJSON_CreateNumber` and the parser leave it. -/
def Truncated (i : ℤ) (d : ℚ) : Prop := i = d.num.tdiv d.den

/-- An integer that a `double` holds. -/
def SmallInteger (i : ℤ) (d : ℚ) : Prop := d = i ∧ |i| ≤ 2 ^ 53

/-- How a tree may differ from the one that was sent: numbers within their tolerance, and
integers up to 2⁵³ not at all. -/
inductive Returns : CJson → CJson → Prop
  | null : Returns .null .null
  | false : Returns .false .false
  | true : Returns .true .true
  | number {d d' : ℚ} (hclose : |d' - d| ≤ tolerance d)
    (hexact : ∀ n : ℤ, d = n → |n| ≤ 2 ^ 53 → d' = n) :
    Returns (createDouble d) (createDouble d')
  | string (s : String) : Returns (.string s) (.string s)
  | array {children : List CJson} {f : CJson → CJson} (h : ∀ c ∈ children, Returns c (f c)) :
    Returns (.array children) (.array (children.map f))
  | object {members : List (String × CJson)} {f : CJson → CJson}
    (h : ∀ m ∈ members, Returns m.2 (f m.2)) :
    Returns (.object members) (.object (members.map fun m => (m.1, f m.2)))

/-- A C text is read back as it was. -/
theorem rereadString_of_cText {s : String} (h : CText s) : rereadString s = s := by
  have hzero : 0 ∉ toBytes s := by
    intro hmem
    obtain ⟨c, hc, hbyte⟩ := List.mem_map.mp hmem
    have hvalue := congrArg UInt8.toNat hbyte
    rw [UInt8.toNat_ofNat'] at hvalue
    obtain ⟨hne, hlt⟩ := h c hc
    rw [Nat.mod_eq_of_lt (by omega)] at hvalue
    exact hne hvalue
  have hchars : s.toList.map ((fun b : UInt8 => Char.ofNat b.toNat) ∘
      fun c => UInt8.ofNat c.toNat) = s.toList := by
    refine (List.map_congr_left fun c hc => ?_).trans (List.map_id _)
    have hlt := (h c hc).2
    rw [Function.comp_apply, UInt8.toNat_ofNat', Nat.mod_eq_of_lt (by omega), Char.ofNat_toNat]
    rfl
  unfold rereadString
  rw [cString_eq_self hzero]
  unfold ofBytes toBytes
  rw [List.map_map, hchars, String.ofList_toList]

/-- A number that the program builds comes back as a number. -/
theorem returns_number (P : PowerOfTen) {i : ℤ} {d : ℚ} (h : Truncated i d)
    (hfinite : FiniteDouble d) :
    Returns (.number i d) (rereadNumber P i d) := by
  unfold Truncated at h
  subst h
  obtain ⟨x, hx⟩ := Option.isSome_iff_exists.mp (printedDecimal_isSome d)
  unfold rereadNumber
  rw [hx]
  refine Returns.number (printedDecimal_close P hfinite hx) fun n hn hsmall => ?_
  obtain ⟨y, hy, hread⟩ := printedDecimal_integer P hsmall
  subst hn
  rw [Rat.num_intCast, Rat.den_intCast, Nat.cast_one, Int.tdiv_one, hy] at hx
  rw [← Option.some.inj hx]
  exact hread

/-- The tree that is read agrees with the tree that was printed: same shape, same names and
strings, and numbers within their tolerance. -/
theorem returns_reread (P : PowerOfTen) {t : CJson} (h : Built Truncated t)
    (hfinite : FiniteTree t) :
    Returns t (reread P t) := by
  induction t using tree_induction with
  | null => exact Returns.null
  | false => exact Returns.false
  | true => exact Returns.true
  | number i d =>
    cases h with
    | number h =>
      cases hfinite with
      | number hfinite => exact returns_number P h hfinite
  | string s =>
    cases h with
    | string h =>
      rw [reread, rereadString_of_cText h]
      exact Returns.string s
  | array children ih =>
    cases h with
    | array h =>
      cases hfinite with
      | array hfinite =>
        rw [reread, rereadEntries_eq]
        exact Returns.array fun c hc => ih c hc (h c hc) (hfinite c hc)
  | object members ih =>
    cases h with
    | object hnames hvalues =>
      have hmembers : members.map (fun m => (rereadString m.1, reread P m.2)) =
          members.map fun m => (m.1, reread P m.2) :=
        List.map_congr_left fun m hm => by rw [rereadString_of_cText (hnames m hm)]
      cases hfinite with
      | object hfinite =>
        rw [reread, rereadMembers_eq, hmembers]
        exact Returns.object fun m hm => ih m hm (hvalues m hm) (hfinite m hm)

/-- A tree without fractions comes back as it was, since integers in the range are printed
with all their digits. -/
theorem reread_exact (P : PowerOfTen) {t : CJson} (h : Built SmallInteger t) :
    reread P t = t := by
  induction t using tree_induction with
  | null => rfl
  | false => rfl
  | true => rfl
  | number i d =>
    cases h with
    | number h =>
      obtain ⟨rfl, hsmall⟩ := h
      obtain ⟨x, hx, hread⟩ := printedDecimal_integer P hsmall
      rw [reread]
      unfold rereadNumber
      rw [hx, Option.elim_some, hread]
      unfold parsedNumber
      rw [Rat.num_intCast, Rat.den_intCast, Nat.cast_one, Int.tdiv_one]
  | string s =>
    cases h with
    | string h => rw [reread, rereadString_of_cText h]
  | array children ih =>
    cases h with
    | array h =>
      rw [reread, rereadEntries_eq, List.map_congr_left fun c hc => ih c hc (h c hc),
        List.map_id']
  | object members ih =>
    cases h with
    | object hnames hvalues =>
      have hmembers : members.map (fun m => (rereadString m.1, reread P m.2)) = members := by
        refine (List.map_congr_left fun m hm => ?_).trans (List.map_id' _)
        rw [rereadString_of_cText (hnames m hm), ih m hm (hvalues m hm)]
      rw [reread, rereadMembers_eq, hmembers]

/-- A tree of finite numbers survives its text, in both styles and at any depth: the whole text is
read, and what is read is the tree up to the rounding of fractions. -/
theorem tree_returns (P : PowerOfTen) {t : CJson} (h : Built Truncated t)
    (hfinite : FiniteTree t) :
    ∃ t', Returns t t' ∧ (Built SmallInteger t → t' = t) ∧
      ∀ fmt depth requireNullTerminated,
        parseWithOpts P (printValue fmt depth t).text requireNullTerminated =
          .done (some t') [] :=
  ⟨reread P t, returns_reread P h hfinite, reread_exact P,
    fun fmt depth requireNullTerminated =>
      parseWithOpts_print P fmt hfinite depth requireNullTerminated⟩

/-- A report of an interval, with a name that needs escapes. -/
def intervalTree : CJson :=
  .object
      [("streams", .array [.object [("jitter", createDouble (1 / 3)), ("bytes", createNumber 9)],
      .object []]), ("\"title\"\n", .string "a\\b\t\x01"), ("omitted", .true)]

/-- Numbers up to `2 ^ 64` in size are finite doubles. -/
theorem finite_of_abs_le {d : ℚ} (h : |d| ≤ 2 ^ 64) : FiniteDouble d :=
  finite_of_le (h.trans (pow_le_pow_right₀ (by norm_num) (by norm_num)))

/-- The tree of an interval has finite numbers. -/
theorem intervalTree_finite : FiniteTree intervalTree := by
  refine FiniteTree.object ?_
  simp only [List.forall_mem_cons, List.not_mem_nil, false_imp_iff, implies_true, and_true]
  refine ⟨FiniteTree.array ?_, FiniteTree.string _, FiniteTree.true⟩
  simp only [List.forall_mem_cons, List.not_mem_nil, false_imp_iff, implies_true, and_true]
  refine ⟨FiniteTree.object ?_, FiniteTree.object (by simp)⟩
  simp only [List.forall_mem_cons, List.not_mem_nil, false_imp_iff, implies_true, and_true]
  exact ⟨FiniteTree.number (finite_of_abs_le (by norm_num [abs_of_pos])),
    FiniteTree.number (finite_of_abs_le (by norm_num))⟩

/-- It comes back from its text. -/
theorem intervalTree_returns :
    ∃ t', Returns intervalTree t' ∧ (Built SmallInteger intervalTree → t' = intervalTree) ∧
      ∀ fmt depth requireNullTerminated,
        parseWithOpts roundedPower (printValue fmt depth intervalTree).text requireNullTerminated =
          .done (some t') [] := by
  refine tree_returns roundedPower (Built.object ?_ ?_) intervalTree_finite
  · simp only [List.forall_mem_cons, List.not_mem_nil, false_imp_iff, implies_true, and_true]
    decide
  · simp only [List.forall_mem_cons, List.not_mem_nil, false_imp_iff, implies_true, and_true]
    refine ⟨Built.array ?_, Built.string (by decide), Built.true⟩
    simp only [List.forall_mem_cons, List.not_mem_nil, false_imp_iff, implies_true, and_true]
    refine ⟨Built.object ?_ ?_, Built.object (by simp) (by simp)⟩
    · simp only [List.forall_mem_cons, List.not_mem_nil, false_imp_iff, implies_true, and_true]
      decide
    · simp only [List.forall_mem_cons, List.not_mem_nil, false_imp_iff, implies_true, and_true]
      exact ⟨Built.number rfl, Built.number (by unfold Truncated; norm_num)⟩

/-- The names and the strings of an object are kept. -/
theorem retold_of_returns {members : List (String × CJson)} {t' : CJson}
    (h : Returns (.object members) t') : Retold (.object members) t' := by
  cases h with
  | @object members f hmembers =>
    refine Retold.object ?_
    rw [List.forall₂_map_right_iff, List.forall₂_same]
    refine fun m hm => ⟨rfl, fun text htext => ?_⟩
    have hvalue := hmembers m hm
    rw [htext] at hvalue
    dsimp only
    rw [htext]
    generalize f (.string text) = v at hvalue
    cases hvalue
    rfl

end IperfRuntime.JsonFidelity
