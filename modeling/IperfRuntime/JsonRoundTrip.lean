import IperfRuntime.JsonText
import IperfRuntime.NumberAccuracy

/-!
# Trees through their texts

What `cJSON_Parse` makes of a text that `cJSON_Print` or `cJSON_PrintUnformatted` has
written: the tree that was printed, up to the accuracy of its numbers, which are finite.
Strings are those without zero bytes, and no memory is asked for that is not there.
-/

namespace IperfRuntime.JsonRoundTrip

open ByteOrder JsonTree JsonFraming ServerOutput PrintfText PrintedNumbers JsonNumbers JsonStrings
  JsonText NumberAccuracy

/-- Induction over a tree, with the hypothesis for every child. -/
theorem tree_induction {motive : CJson → Prop} (null : motive .null) (false : motive .false)
    (true : motive .true) (number : ∀ i d, motive (.number i d)) (string : ∀ s, motive (.string s))
    (array : ∀ children, (∀ c ∈ children, motive c) → motive (.array children))
    (object : ∀ members, (∀ m ∈ members, motive m.2) → motive (.object members)) (t : CJson) :
    motive t := by
  refine @CJson.rec motive (fun cs => ∀ c ∈ cs, motive c) (fun ms => ∀ m ∈ ms, motive m.2)
    (fun m => motive m.2) null false true number string array object ?_ ?_ ?_ ?_ ?_ t
  · exact fun c hc => absurd hc List.not_mem_nil
  · exact fun c cs hc hcs => List.forall_mem_cons.mpr ⟨hc, hcs⟩
  · exact fun m hm => absurd hm List.not_mem_nil
  · exact fun m ms hm hms => List.forall_mem_cons.mpr ⟨hm, hms⟩
  · exact fun name value hvalue => hvalue

/-- A tree all of whose numbers are finite. -/
inductive FiniteTree : CJson → Prop
  | null : FiniteTree .null
  | false : FiniteTree .false
  | true : FiniteTree .true
  | number {i : ℤ} {d : ℚ} (h : FiniteDouble d) : FiniteTree (.number i d)
  | string (s : String) : FiniteTree (.string s)
  | array {children : List CJson} (h : ∀ c ∈ children, FiniteTree c) : FiniteTree (.array children)
  | object {members : List (String × CJson)} (h : ∀ m ∈ members, FiniteTree m.2) :
    FiniteTree (.object members)

/-- Elements that all come to something come to it together. -/
theorem together_map {α β : Type*} (f : α → β) (parts : List α) :
    together (parts.map fun a => some (f a)) = some (parts.map f) := by
  induction parts with
  | nil => rfl
  | cons a parts ih => rw [List.map_cons, together, ih, Option.bind_some, Option.map_some,
      List.map_cons]

/-- Elements that are there already are the list itself. -/
theorem together_some {α : Type*} (parts : List α) : together (parts.map some) = some parts := by
  rw [together_map, List.map_id']

/-- A string slot as a C string. -/
def rereadString (s : String) : String := ofBytes (cString (toBytes s))

/-- The node that a printed number is read as. -/
def rereadNumber (P : PowerOfTen) (valueint : ℤ) (d : ℚ) : CJson :=
  (printedDecimal valueint d).elim .null fun x => parsedNumber (x.read P)

mutual

/-- The tree that is read from the text of a tree. -/
def reread (P : PowerOfTen) : CJson → CJson
  | .null => .null
  | .false => .false
  | .true => .true
  | .number valueint valuedouble => rereadNumber P valueint valuedouble
  | .string valuestring => .string (rereadString valuestring)
  | .array children => .array (rereadEntries P children)
  | .object members => .object (rereadMembers P members)

/-- The children of an array. -/
def rereadEntries (P : PowerOfTen) : List CJson → List CJson
  | [] => []
  | child :: children => reread P child :: rereadEntries P children

/-- The members of an object. -/
def rereadMembers (P : PowerOfTen) : List (String × CJson) → List (String × CJson)
  | [] => []
  | (name, child) :: members => (rereadString name, reread P child) :: rereadMembers P members

end

/-- The mutual recursion over the entries of an array is a map. -/
theorem rereadEntries_eq (P : PowerOfTen) (children : List CJson) :
    rereadEntries P children = children.map (reread P) := by
  induction children with
  | nil => rfl
  | cons child children ih => rw [rereadEntries, ih, List.map_cons]

/-- The mutual recursion over the members of an object is a map on names and values. -/
theorem rereadMembers_eq (P : PowerOfTen) (members : List (String × CJson)) :
    rereadMembers P members = members.map fun m => (rereadString m.1, reread P m.2) := by
  induction members with
  | nil => rfl
  | cons m members ih =>
    obtain ⟨name, child⟩ := m
    rw [rereadMembers, ih, List.map_cons]

/-- The entries of an array are printed one by one, each at the depth of the array. -/
theorem printEntries_eq (fmt : Bool) (depth : ℕ) (children : List CJson) :
    printEntries fmt depth children = children.map (printValue fmt depth) := by
  induction children with
  | nil => rfl
  | cons child children ih => rw [printEntries, ih, List.map_cons]

/-- The members of an object are printed one by one, each as its name and its value. -/
theorem printMembers_eq (fmt : Bool) (depth : ℕ) (members : List (String × CJson)) :
    printMembers fmt depth members =
      members.map fun m => (printStringPtr (toBytes m.1), printValue fmt depth m.2) := by
  induction members with
  | nil => rfl
  | cons m members ih =>
    obtain ⟨name, child⟩ := m
    rw [printMembers, ih, List.map_cons]

/-- Bytes that `skip` passes. -/
def Spaces (text : List UInt8) : Prop := ∀ b ∈ text, b ≤ 32

/-- `skip` passes over everything up to the blank, which takes in tabs and line ends. -/
theorem skip_spaces {spaces : List UInt8} (h : Spaces spaces) (rest : List UInt8) :
    skip (spaces ++ rest) = skip rest := by
  unfold skip
  exact List.dropWhile_append_of_pos fun b hb => decide_eq_true (h b hb)

/-- `skip` stands still in front of a byte above the blank. -/
theorem skip_stop {b : UInt8} (h : 32 < b) (rest : List UInt8) : skip (b :: rest) = b :: rest :=
  List.dropWhile_cons_of_neg (by simpa using h)

/-- A text that begins with something other than whitespace. -/
def Begins (text : List UInt8) : Prop := ∃ b rest, text = b :: rest ∧ 32 < b

/-- It stands still in front of every text that begins with such a byte, as all values do. -/
theorem Begins.skip {text : List UInt8} (h : Begins text) (rest : List UInt8) :
    JsonText.skip (text ++ rest) = text ++ rest := by
  obtain ⟨b, tail, rfl, hb⟩ := h
  exact skip_stop hb _

/-- Texts with a comma and some whitespace between them. -/
def joined (space : List UInt8) : List (List UInt8) → List UInt8
  | [] => []
  | [text] => text
  | text :: texts => text ++ byte ',' :: space ++ joined space texts

/-- Between two elements stand a comma and the white space of the style. -/
theorem joined_cons_cons (space first second : List UInt8) (texts : List (List UInt8)) :
    joined space (first :: second :: texts) =
      first ++ byte ',' :: space ++ joined space (second :: texts) := rfl

/-- An element is not longer than the list that it stands in, so that the fuel for the list is
enough for it. -/
theorem length_le_joined {space text : List UInt8} {texts : List (List UInt8)} (h : text ∈ texts) :
    text.length ≤ (joined space texts).length := by
  induction texts with
  | nil => cases h
  | cons first texts ih =>
    cases texts with
    | nil =>
      rw [List.mem_singleton.mp h]
      exact le_rfl
    | cons second texts =>
      rw [joined_cons_cons, List.length_append, List.length_append]
      rcases List.mem_cons.mp h with rfl | hrest
      · omega
      · have hlength := ih hrest
        omega

/-- A number ends in front of a comma. -/
theorem stopsNumber_comma (rest : List UInt8) : StopsNumber (byte ',' :: rest) := by
  intro b hb
  cases hb
  decide

/-- What an element parser does with the text of an element, whatever follows it. -/
def Reads {α : Type*} (element : List UInt8 → Parsed α) (text : List UInt8) (value : α) : Prop :=
  ∀ rest, StopsNumber rest → element (text ++ rest) = .done value rest

/-- The loop over a sequence reads all of its elements, by induction on them; what is between
two elements is a comma and whitespace. -/
theorem parseSequence_joined {α : Type*} {element : List UInt8 → Parsed α} {close : UInt8}
    {space last : List UInt8} (hspace : Spaces space) (hlast : Spaces last) (hclose : 32 < close)
    (hcomma : close ≠ byte ',') {texts : List (List UInt8)} {values : List α}
    (hreads : List.Forall₂ (fun text value => Begins text ∧ Reads element text value) texts values)
    (hne : texts ≠ []) {n : ℕ} (hn : texts.length ≤ n) (rest : List UInt8)
    (hstop : StopsNumber (last ++ close :: rest)) :
    parseSequence element close n (joined space texts ++ (last ++ close :: rest)) =
      .done values rest := by
  induction hreads generalizing n with
  | nil => exact absurd rfl hne
  | @cons text value texts values hhead htail ih =>
    obtain ⟨-, hread⟩ := hhead
    cases n with
    | zero => simp at hn
    | succ n =>
      cases htail with
      | nil =>
        rw [parseSequence, joined, hread _ hstop]
        dsimp only [Parsed.bind]
        rw [skip_spaces hlast, skip_stop hclose]
        dsimp only
        rw [if_neg hcomma, if_pos rfl]
      | @cons text' value' texts values hnext htail =>
        have hrec := ih (List.cons_ne_nil _ _) (n := n) (by simpa using hn)
        have hbegins : Begins (joined space (text' :: texts)) := by
          obtain ⟨b, tail, htext, hb⟩ := hnext.1
          cases texts with
          | nil => exact ⟨b, tail, htext, hb⟩
          | cons text'' texts =>
            refine ⟨b, tail ++ byte ',' :: space ++ joined space (text'' :: texts), ?_, hb⟩
            rw [joined_cons_cons, htext, List.cons_append, List.cons_append]
        have hsplit : joined space (text :: text' :: texts) ++ (last ++ close :: rest) =
            text ++ (byte ',' :: (space ++ (joined space (text' :: texts) ++
              (last ++ close :: rest)))) := by
          rw [joined_cons_cons]
          simp only [List.append_assoc, List.cons_append]
        rw [hsplit, parseSequence, hread _ (stopsNumber_comma _)]
        dsimp only [Parsed.bind]
        rw [skip_stop (by decide)]
        dsimp only
        rw [if_pos rfl, skip_spaces hspace, hbegins.skip, hrec]

/-- A list has at least as many bytes as elements, as no element is empty. -/
theorem length_texts_le {space : List UInt8} {texts : List (List UInt8)}
    (h : ∀ text ∈ texts, Begins text) : texts.length ≤ (joined space texts).length := by
  induction texts with
  | nil => exact Nat.zero_le _
  | cons first texts ih =>
    obtain ⟨b, tail, hfirst, -⟩ := h first List.mem_cons_self
    cases texts with
    | nil =>
      rw [joined, hfirst, List.length_cons, List.length_cons]
      exact Nat.succ_le_succ (Nat.zero_le _)
    | cons second texts =>
      have hrec := ih fun text htext => h text (List.mem_cons_of_mem _ htext)
      rw [joined_cons_cons, List.length_append, List.length_append]
      simp only [List.length_cons] at hrec ⊢
      omega

/-- A bracket with whitespace, the elements, whitespace and the closing bracket is read as
these elements, or as none if it closes at once. -/
theorem parseBracket_joined {α : Type*} {element : List UInt8 → Parsed α} {close : UInt8}
    {first space last : List UInt8} (hfirst : Spaces first) (hspace : Spaces space)
    (hlast : Spaces last) (hclose : 32 < close) (hcomma : close ≠ byte ',')
    {texts : List (List UInt8)} {values : List α}
    (hreads : List.Forall₂ (fun text value => (Begins text ∧ text.head? ≠ some close) ∧
      Reads element text value) texts values)
    (hne : texts ≠ []) (rest : List UInt8) (hstop : StopsNumber (last ++ close :: rest)) :
    parseBracket element close (first ++ (joined space texts ++ (last ++ close :: rest))) =
      .done values rest := by
  have hseq : List.Forall₂ (fun text value => Begins text ∧ Reads element text value)
      texts values := hreads.imp fun text value h => ⟨h.1.1, h.2⟩
  have hall : ∀ text ∈ texts, Begins text := ((List.forall₂_and_left _ _).mp hseq).1
  have hcount : texts.length ≤ (joined space texts).length := length_texts_le hall
  have hhead : ∃ b tail, joined space texts = b :: tail ∧ 32 < b ∧ b ≠ close := by
    cases hreads with
    | nil => exact absurd rfl hne
    | @cons text value texts values hhead htail =>
      obtain ⟨⟨⟨b, tail, rfl, hb⟩, hnot⟩, -⟩ := hhead
      have hbclose : b ≠ close := fun heq => hnot (congrArg some heq)
      cases texts with
      | nil => exact ⟨b, tail, rfl, hb, hbclose⟩
      | cons text' texts =>
        refine ⟨b, tail ++ byte ',' :: space ++ joined space (text' :: texts), ?_, hb, hbclose⟩
        rw [joined_cons_cons, List.cons_append, List.cons_append]
  obtain ⟨b, tail, hjoined, hb, hbclose⟩ := hhead
  unfold parseBracket
  rw [skip_spaces hfirst, hjoined, List.cons_append, skip_stop hb]
  dsimp only
  rw [if_neg hbclose, ← List.cons_append, ← hjoined]
  refine parseSequence_joined hspace hlast hclose hcomma hseq hne ?_ rest hstop
  rw [hjoined, List.length_cons] at hcount
  rw [List.length_append]
  omega

/-- Brackets with white space only hold no element. -/
theorem parseBracket_empty {α : Type*} {element : List UInt8 → Parsed α} {close : UInt8}
    {first : List UInt8} (hfirst : Spaces first) (hclose : 32 < close) (rest : List UInt8) :
    parseBracket element close (first ++ close :: rest) = .done [] rest := by
  unfold parseBracket
  rw [skip_spaces hfirst, skip_stop hclose]
  exact if_pos rfl

/-- No byte is white space, as between the elements of an unformatted text. -/
theorem spaces_nil : Spaces [] := fun _ hb => absurd hb List.not_mem_nil

/-- A blank is white space, as behind a comma of a formatted array. -/
theorem spaces_blank : Spaces [32] := List.forall_mem_singleton.mpr (by decide)

/-- White space that one of the two styles leaves out is white space in both. -/
theorem spaces_styled (fmt : Bool) {space : List UInt8} (h : Spaces space) :
    Spaces (styled fmt space) := by
  cases fmt with
  | false => exact spaces_nil
  | true => exact h

/-- The tabs that indent the members of an object are white space. -/
theorem spaces_tabs (depth : ℕ) : Spaces (List.replicate depth 9) := by
  intro b hb
  rw [List.eq_of_mem_replicate hb]
  decide

/-- So is the line end with these tabs behind it. -/
theorem spaces_line (depth : ℕ) : Spaces (10 :: List.replicate depth 9) :=
  List.forall_mem_cons.mpr ⟨by decide, spaces_tabs depth⟩

/-- Whitespace or a closing bracket ends a number. -/
theorem stopsNumber_close {space : List UInt8} (h : Spaces space) {close : UInt8}
    (hclose : close = byte ']' ∨ close = byte '}') (rest : List UInt8) :
    StopsNumber (space ++ close :: rest) := by
  intro b hb
  cases space with
  | nil =>
    cases hb
    rcases hclose with rfl | rfl
    · decide
    · decide
  | cons c space =>
    cases hb
    have hsmall := UInt8.le_iff_toNat_le.mp (h b List.mem_cons_self)
    have hlarge {d : UInt8} (hd : 32 < d.toNat) : b ≠ d := by
      intro heq
      rw [heq] at hsmall
      exact absurd hsmall (not_le.mpr hd)
    refine ⟨?_, hlarge (by decide), hlarge (by decide), hlarge (by decide)⟩
    unfold isDigit
    rw [Bool.and_eq_false_iff, decide_eq_false_iff_not, UInt8.le_iff_toNat_le]
    exact Or.inl fun hle => absurd (hle.trans hsmall) (by decide)

/-- The entries of an array as texts with spaces between them. -/
theorem joinEntries_eq (fmt : Bool) (entries : List Block) :
    joinEntries fmt entries = joined (styled fmt [32]) (entries.map Block.text) := by
  induction entries with
  | nil => rfl
  | cons entry entries ih =>
    cases entries with
    | nil => rfl
    | cons second entries =>
      have hcons : joinEntries fmt (entry :: second :: entries) =
          entry.text ++ byte ',' :: styled fmt [32] ++ joinEntries fmt (second :: entries) := rfl
      rw [hcons, ih]
      rfl

/-- A member without the whitespace around it. -/
def memberText (fmt : Bool) (m : Block × Block) : List UInt8 :=
  m.1.text ++ byte ':' :: styled fmt [9] ++ m.2.text

/-- The members of an object as texts with lines between them. -/
theorem joinMembers_eq (fmt : Bool) (depth : ℕ) {members : List (Block × Block)}
    (hne : members ≠ []) :
    joinMembers fmt depth members = styled fmt (List.replicate depth 9) ++
      joined (styled fmt (10 :: List.replicate depth 9)) (members.map (memberText fmt)) ++
        styled fmt [10] := by
  induction members with
  | nil => exact absurd rfl hne
  | cons m members ih =>
    obtain ⟨name, entry⟩ := m
    cases members with
    | nil =>
      rw [joinMembers, if_pos rfl]
      simp [joinMembers, joined, memberText]
    | cons second members =>
      have hline : styled fmt (10 :: List.replicate depth 9) =
          styled fmt [10] ++ styled fmt (List.replicate depth 9) := by
        cases fmt with
        | false => rfl
        | true => rfl
      rw [joinMembers, if_neg (List.cons_ne_nil _ _), ih (List.cons_ne_nil _ _)]
      simp only [List.map_cons, joined_cons_cons, hline, memberText, List.append_assoc,
        List.cons_append, List.nil_append]

/-- A number begins with its sign or with a digit. -/
theorem decimal_head (x : Decimal) :
    ∃ b tail, bytes x.text = b :: tail ∧ (b = byte '-' ∨ isDigit b = true) := by
  unfold Decimal.text bytes
  cases hneg : x.negative with
  | true => exact ⟨byte '-', _, rfl, Or.inl rfl⟩
  | false =>
    have hdigits := x.wholeDigits
    have hne := x.ne_nil
    cases hwhole : x.whole with
    | nil => exact absurd hwhole hne
    | cons c whole =>
      rw [hwhole] at hdigits
      exact ⟨byte c, _, rfl, Or.inr (isDigit_byte (hdigits c List.mem_cons_self))⟩

/-- The digits are the bytes from 48 to 57. -/
theorem isDigit_bounds {b : UInt8} (h : isDigit b = true) : 48 ≤ b.toNat ∧ b.toNat ≤ 57 := by
  unfold isDigit at h
  rw [Bool.and_eq_true, decide_eq_true_eq, decide_eq_true_eq, UInt8.le_iff_toNat_le,
    UInt8.le_iff_toNat_le] at h
  exact h

/-- The first byte of a number is none of those that another value begins with. -/
theorem ne_of_numberHead {b c : UInt8} (h : b = byte '-' ∨ isDigit b = true)
    (hc : c ≠ byte '-' ∧ isDigit c = false) : b ≠ c := by
  rintro rfl
  rcases h with hminus | hdigit
  · exact hc.1 hminus
  · rw [hc.2] at hdigit
    cases hdigit

/-- The sign and the digits are above the blank, so `skip` stops in front of a number. -/
theorem lt_of_numberHead {b : UInt8} (h : b = byte '-' ∨ isDigit b = true) : 32 < b := by
  rcases h with rfl | hdigit
  · decide
  · rw [UInt8.lt_iff_toNat_lt]
    exact lt_of_lt_of_le (show 32 < 48 by decide) (isDigit_bounds hdigit).1

/-- Every value begins with a byte that neither is whitespace nor closes an array, so that the
parser knows it for an element. -/
theorem printValue_begins (fmt : Bool) (depth : ℕ) (t : CJson) :
    Begins (printValue fmt depth t).text ∧
      (printValue fmt depth t).text.head? ≠ some (byte ']') := by
  cases t with
  | null =>
    rw [printValue]
    exact ⟨⟨_, _, rfl, by decide⟩, by decide⟩
  | false =>
    rw [printValue]
    exact ⟨⟨_, _, rfl, by decide⟩, by decide⟩
  | true =>
    rw [printValue]
    exact ⟨⟨_, _, rfl, by decide⟩, by decide⟩
  | number i d =>
    rw [printValue]
    unfold numberBlock
    dsimp only
    rw [printNumber_eq]
    cases printedDecimal i d with
    | none => exact ⟨⟨_, _, rfl, by decide⟩, by decide⟩
    | some x =>
      obtain ⟨b, tail, htext, hb⟩ := decimal_head x
      rw [Option.map_some, Option.getD_some, htext]
      refine ⟨⟨b, tail, rfl, lt_of_numberHead hb⟩, fun heq => ?_⟩
      exact ne_of_numberHead hb (by decide) (Option.some.inj heq)
  | string s =>
    rw [printValue, printStringPtr_text]
    exact ⟨⟨_, _, rfl, by decide⟩, by simp [show byte '"' ≠ byte ']' by decide]⟩
  | array children =>
    rw [printValue]
    unfold printArray
    split
    · exact ⟨⟨_, _, rfl, by decide⟩, by decide⟩
    · exact ⟨⟨_, _, rfl, by decide⟩, by simp [show byte '[' ≠ byte ']' by decide]⟩
  | object members =>
    rw [printValue]
    unfold printObject
    split
    · exact ⟨⟨_, _, rfl, by decide⟩, by simp [show byte '{' ≠ byte ']' by decide]⟩
    · exact ⟨⟨_, _, rfl, by decide⟩, by simp [show byte '{' ≠ byte ']' by decide]⟩

/-- A text does not start with a word whose first byte it does not have. -/
theorem not_isPrefixOf {a b : UInt8} (h : b ≠ a) (as bs : List UInt8) :
    (a :: as).isPrefixOf (b :: bs) = false := by
  rw [List.isPrefixOf, Bool.and_eq_false_iff]
  exact Or.inl (beq_eq_false_iff_ne.mpr h.symm)

/-- A value that is no literal name is taken by its first byte. -/
theorem parseValue_head (P : PowerOfTen) (n : ℕ) {b : UInt8}
    (h : b ≠ byte 'n' ∧ b ≠ byte 'f' ∧ b ≠ byte 't') (rest : List UInt8) :
    parseValue P (n + 1) (b :: rest) =
      if b = byte '"' then
        (parseString (b :: rest)).bind fun s rest => .done (some (.string (ofBytes s))) rest
      else if b = byte '-' ∨ isDigit b = true then
        .done (parseNumber P (b :: rest)).1 (parseNumber P (b :: rest)).2
      else if b = byte '[' then
        (parseBracket (parseValue P n) (byte ']') rest).bind fun children rest =>
          .done ((together children).map .array) rest
      else if b = byte '{' then
        (parseBracket (parseMember (parseValue P n)) (byte '}') rest).bind fun members rest =>
          .done ((together members).map .object) rest
      else .malformed (b :: rest) := by
  have hnull : (bytes (lit "null")).isPrefixOf (b :: rest) = false := not_isPrefixOf h.1 _ _
  have hfalse : (bytes (lit "false")).isPrefixOf (b :: rest) = false := not_isPrefixOf h.2.1 _ _
  have htrue : (bytes (lit "true")).isPrefixOf (b :: rest) = false := not_isPrefixOf h.2.2 _ _
  rw [parseValue, hnull, hfalse, htrue]
  rfl

/-- An array is longer than each of its entries by its two brackets at least. -/
theorem length_le_printArray {fmt : Bool} {entries : List Block} {entry : Block}
    (h : entry ∈ entries) : entry.text.length + 2 ≤ (printArray fmt entries).text.length := by
  have hne : entries ≠ [] := List.ne_nil_of_mem h
  have hle : entry.text.length ≤ (joined (styled fmt [32]) (entries.map Block.text)).length :=
    length_le_joined (List.mem_map_of_mem h)
  unfold printArray
  rw [if_neg hne, joinEntries_eq]
  simp only [List.length_append, List.length_cons, List.length_nil]
  omega

/-- An object is longer than each of its values by its two braces at least. -/
theorem length_le_printObject {fmt : Bool} {depth : ℕ} {members : List (Block × Block)}
    {m : Block × Block} (h : m ∈ members) :
    m.2.text.length + 2 ≤ (printObject fmt depth members).text.length := by
  have hne : members ≠ [] := List.ne_nil_of_mem h
  have hle : (memberText fmt m).length ≤ (joined (styled fmt (10 :: List.replicate (depth + 1) 9))
      (members.map (memberText fmt))).length := length_le_joined (List.mem_map_of_mem h)
  have hmember : m.2.text.length ≤ (memberText fmt m).length := by
    unfold memberText
    simp only [List.length_append]
    omega
  unfold printObject
  rw [if_neg hne, joinMembers_eq fmt (depth + 1) hne]
  simp only [List.length_append, List.length_cons, List.length_nil]
  omega

/-- A member is read as its name and its value. -/
theorem parseMember_printed {parse : List UInt8 → Parsed (Option CJson)} (fmt : Bool)
    (name : String) {entry : Block} {value : CJson} (hbegins : Begins entry.text)
    (hreads : Reads parse entry.text (some value)) :
    Reads (parseMember parse) (memberText fmt (printStringPtr (toBytes name), entry))
      (some (rereadString name, value)) := by
  intro rest hrest
  have htext : memberText fmt (printStringPtr (toBytes name), entry) ++ rest =
      (printStringPtr (toBytes name)).text ++
        (byte ':' :: (styled fmt [9] ++ (entry.text ++ rest))) := by
    unfold memberText
    simp only [List.append_assoc, List.cons_append]
  have htab : Spaces (styled fmt [9]) := spaces_styled fmt (spaces_tabs 1)
  unfold parseMember
  rw [htext, parseString_printed]
  dsimp only [Parsed.bind]
  rw [skip_stop (by decide)]
  dsimp only
  rw [if_neg (by decide), skip_spaces htab, hbegins.skip, hreads rest hrest]
  rfl

/-- An array is read when its entries are, formatted or not; the spaces behind the commas are
skipped. -/
theorem parseArray_printed (P : PowerOfTen) (fmt : Bool) {entries : List Block}
    {values : List CJson} {n : ℕ}
    (h : List.Forall₂ (fun entry value => (Begins entry.text ∧
      entry.text.head? ≠ some (byte ']')) ∧ Reads (parseValue P n) entry.text (some value))
      entries values) :
    Reads (parseValue P (n + 1)) (printArray fmt entries).text (some (.array values)) := by
  intro rest hrest
  have hopen (tail : List UInt8) : parseValue P (n + 1) (byte '[' :: tail) =
      (parseBracket (parseValue P n) (byte ']') tail).bind fun children rest =>
        .done ((together children).map .array) rest := by
    rw [parseValue_head P n (by decide), if_neg (by decide), if_neg (by decide), if_pos rfl]
  unfold printArray
  split
  · rename_i hempty
    rw [hempty] at h
    cases h
    have hbracket : parseBracket (parseValue P n) (byte ']') (byte ']' :: rest) = .done [] rest :=
      parseBracket_empty spaces_nil (by decide) rest
    dsimp only [List.cons_append, List.nil_append]
    rw [hopen, hbracket]
    rfl
  · rename_i hne
    have htexts : entries.map Block.text ≠ [] := by simpa using hne
    have hbracket : parseBracket (parseValue P n) (byte ']') (joined (styled fmt [32])
        (entries.map Block.text) ++ byte ']' :: rest) = .done (values.map some) rest :=
      parseBracket_joined spaces_nil (spaces_styled fmt spaces_blank) spaces_nil (by decide)
        (by decide) (List.forall₂_map_left_iff.mpr (List.forall₂_map_right_iff.mpr h)) htexts rest
        (stopsNumber_close spaces_nil (Or.inl rfl) rest)
    simp only [List.cons_append, List.append_assoc, List.nil_append]
    rw [hopen, joinEntries_eq, hbracket]
    dsimp only [Parsed.bind]
    rw [together_some, Option.map_some]

/-- An object is read when its members are, formatted or not; line ends and tabs around them
are skipped. -/
theorem parseObject_printed (P : PowerOfTen) (fmt : Bool) (depth : ℕ)
    {members : List (Block × Block)} {values : List (String × CJson)} {n : ℕ}
    (h : List.Forall₂ (fun m value => (Begins (memberText fmt m) ∧
      (memberText fmt m).head? ≠ some (byte '}')) ∧
      Reads (parseMember (parseValue P n)) (memberText fmt m) (some value)) members values) :
    Reads (parseValue P (n + 1)) (printObject fmt depth members).text (some (.object values)) := by
  intro rest hrest
  have hopen (tail : List UInt8) : parseValue P (n + 1) (byte '{' :: tail) =
      (parseBracket (parseMember (parseValue P n)) (byte '}') tail).bind fun members rest =>
        .done ((together members).map .object) rest := by
    rw [parseValue_head P n (by decide), if_neg (by decide), if_neg (by decide),
      if_neg (by decide), if_pos rfl]
  unfold printObject
  split
  · rename_i hempty
    rw [hempty] at h
    cases h
    have hbracket : parseBracket (parseMember (parseValue P n)) (byte '}')
        (styled fmt (10 :: List.replicate depth 9) ++ byte '}' :: rest) = .done [] rest :=
      parseBracket_empty (spaces_styled fmt (spaces_line depth)) (by decide) rest
    simp only [List.cons_append, List.append_assoc, List.nil_append]
    rw [hopen, hbracket]
    rfl
  · rename_i hne
    have htexts : members.map (memberText fmt) ≠ [] := by simpa using hne
    have hfirst : Spaces (styled fmt [10] ++ styled fmt (List.replicate (depth + 1) 9)) :=
      List.forall_mem_append.mpr ⟨spaces_styled fmt (spaces_line 0),
        spaces_styled fmt (spaces_tabs _)⟩
    have hlast : Spaces (styled fmt [10] ++ styled fmt (List.replicate depth 9)) :=
      List.forall_mem_append.mpr ⟨spaces_styled fmt (spaces_line 0),
        spaces_styled fmt (spaces_tabs _)⟩
    have hbracket := parseBracket_joined hfirst
      (spaces_styled fmt (spaces_line (depth + 1))) hlast (by decide) (by decide)
      (List.forall₂_map_left_iff.mpr (List.forall₂_map_right_iff.mpr h)) htexts rest
      (stopsNumber_close hlast (Or.inr rfl) rest)
    simp only [List.append_assoc] at hbracket
    simp only [List.cons_append, List.append_assoc, List.nil_append]
    rw [hopen, joinMembers_eq fmt (depth + 1) hne]
    simp only [List.append_assoc]
    rw [hbracket]
    dsimp only [Parsed.bind]
    rw [together_some, Option.map_some]

/-- The parser of a value, on everything that a tree can be printed as, by induction on the
tree. Depth and format are arbitrary, as the members of an object are printed deeper. -/
theorem parseValue_printed (P : PowerOfTen) (fmt : Bool) {t : CJson} (h : FiniteTree t) :
    ∀ depth n, (printValue fmt depth t).text.length ≤ n →
      Reads (parseValue P (n + 1)) (printValue fmt depth t).text (some (reread P t)) := by
  induction t using tree_induction with
  | null =>
    intro depth n hn rest hrest
    rw [printValue, reread]
    rfl
  | false =>
    intro depth n hn rest hrest
    rw [printValue, reread]
    rfl
  | true =>
    intro depth n hn rest hrest
    rw [printValue, reread]
    rfl
  | number i d =>
    intro depth n hn rest hrest
    rw [printValue, reread]
    unfold numberBlock rereadNumber
    dsimp only
    rw [printNumber_eq]
    cases h with
    | number h =>
    cases hx : printedDecimal i d with
    | none => rfl
    | some x =>
      obtain ⟨b, tail, htext, hb⟩ := decimal_head x
      have hparse := parseNumber_text P (printedDecimal_inRange P h hx) hrest
      rw [Option.map_some, Option.getD_some]
      rw [htext, List.cons_append] at hparse ⊢
      rw [parseValue_head P n ⟨ne_of_numberHead hb (by decide), ne_of_numberHead hb (by decide),
        ne_of_numberHead hb (by decide)⟩, if_neg (ne_of_numberHead hb (by decide)),
            if_pos hb, hparse]
      rfl
  | string s =>
    intro depth n hn rest hrest
    have hparse := parseString_printed (toBytes s) rest
    rw [printValue, reread]
    rw [printStringPtr_text, List.cons_append, List.cons_append] at hparse ⊢
    rw [parseValue_head P n (by decide), if_pos rfl, hparse]
    rfl
  | array children ih =>
    intro depth n hn
    have hchildren : ∀ c ∈ children, FiniteTree c := by
      cases h with
      | array h => exact h
    rw [printValue, printEntries_eq] at hn ⊢
    rw [reread, rereadEntries_eq]
    refine parseArray_printed P fmt ?_
    rw [List.forall₂_map_left_iff, List.forall₂_map_right_iff, List.forall₂_same]
    intro c hc
    have hle : (printValue fmt (depth + 1) c).text.length + 2 ≤
        (printArray fmt (children.map (printValue fmt (depth + 1)))).text.length :=
      length_le_printArray (List.mem_map_of_mem hc)
    obtain ⟨n, rfl⟩ : ∃ m, n = m + 1 := ⟨n - 1, by omega⟩
    exact ⟨printValue_begins fmt _ c, ih c hc (hchildren c hc) _ n (by omega)⟩
  | object members ih =>
    intro depth n hn
    have hvalues : ∀ m ∈ members, FiniteTree m.2 := by
      cases h with
      | object h => exact h
    rw [printValue, printMembers_eq] at hn ⊢
    rw [reread, rereadMembers_eq]
    refine parseObject_printed P fmt depth ?_
    rw [List.forall₂_map_left_iff, List.forall₂_map_right_iff, List.forall₂_same]
    intro m hm
    have hle : (printValue fmt (depth + 1) m.2).text.length + 2 ≤
        (printObject fmt depth (members.map fun m =>
          (printStringPtr (toBytes m.1), printValue fmt (depth + 1) m.2))).text.length := by
      refine @length_le_printObject fmt depth _
        (printStringPtr (toBytes m.1), printValue fmt (depth + 1) m.2) (List.mem_map.mpr ?_)
      exact ⟨m, hm, rfl⟩
    obtain ⟨n, rfl⟩ : ∃ m, n = m + 1 := ⟨n - 1, by omega⟩
    have hhead : memberText fmt (printStringPtr (toBytes m.1), printValue fmt (depth + 1) m.2) =
        byte '"' :: (escape (cString (toBytes m.1)) ++ [byte '"'] ++
          (byte ':' :: styled fmt [9] ++ (printValue fmt (depth + 1) m.2).text)) := by
      unfold memberText
      rw [printStringPtr_text]
      simp only [List.cons_append, List.append_assoc]
    refine ⟨⟨⟨_, _, hhead, by decide⟩, ?_⟩, ?_⟩
    · rw [hhead]
      simp [show byte '"' ≠ byte '}' by decide]
    · exact parseMember_printed fmt m.1 (printValue_begins fmt _ m.2).1
        (ih m hm (hvalues m hm) _ n (by omega))

/-- No character of a number is the terminator. -/
theorem byte_ne_zero_of_numeral {c : Char} (h : numeral c = true) : byte c ≠ 0 := by
  unfold numeral at h
  rw [Bool.or_eq_true, decide_eq_true_eq] at h
  rcases h with hdigit | hother
  · intro heq
    have hlow := (byte_digit_bounds hdigit).1
    rw [heq] at hlow
    exact absurd hlow (by decide)
  · simp only [List.mem_cons, List.not_mem_nil, or_false] at hother
    rcases hother with rfl | rfl | rfl | rfl
    · decide
    · decide
    · decide
    · decide

/-- A decimal consists of digits, a sign, a point and the letter of the exponent, so it ends
where something else begins. -/
theorem numeral_decimal (x : Decimal) : ∀ c ∈ x.text, numeral c = true := by
  intro c hc
  unfold Decimal.text at hc
  simp only [List.mem_append] at hc
  rcases hc with ((hsign | hwhole) | hplaces) | hexponent
  · split at hsign
    · rw [List.mem_singleton.mp hsign]
      rfl
    · cases hsign
  · exact numeral_digits x.wholeDigits c hwhole
  · unfold pointText at hplaces
    split at hplaces
    · cases hplaces
    · rcases List.mem_cons.mp hplaces with rfl | hdigit
      · rfl
      · exact numeral_digits x.placesDigits c hdigit
  · unfold exponentText at hexponent
    split at hexponent
    · cases hexponent
    · rcases List.mem_cons.mp hexponent with rfl | hrest
      · rfl
      · rcases List.mem_cons.mp hrest with rfl | hdigits
        · split
          · rfl
          · rfl
        · exact numeral_digits (digits_zeroPadded _ _) c hdigits

/-- A printed number has no terminator inside. -/
theorem zero_not_mem_number (i : ℤ) (d : ℚ) : 0 ∉ bytes (printNumber i d) := by
  rw [printNumber_eq]
  cases printedDecimal i d with
  | none => decide
  | some x =>
    intro hzero
    obtain ⟨c, hc, hbyte⟩ := List.mem_map.mp hzero
    exact byte_ne_zero_of_numeral (numeral_decimal x c hc) hbyte

/-- The escape of a byte other than the terminator holds no terminator. -/
theorem zero_not_mem_escapeByte (b : UInt8) (hb : b ≠ 0) : 0 ∉ escapeByte b := by
  revert hb
  refine forall_byte (p := fun b => b ≠ 0 → 0 ∉ escapeByte b) ?_ b
  decide +kernel

/-- A printed string has no terminator inside, as the printer stops at the first one. -/
theorem zero_not_mem_string (str : List UInt8) : 0 ∉ (printStringPtr str).text := by
  rw [printStringPtr_text]
  intro hzero
  rw [List.cons_append, List.mem_cons, List.mem_append, List.mem_singleton] at hzero
  rcases hzero with hquote | hbody | hquote
  · exact absurd hquote (by decide)
  · obtain ⟨b, hb, hmem⟩ := List.mem_flatMap.mp hbody
    refine zero_not_mem_escapeByte b (fun heq => ?_) hmem
    rw [heq] at hb
    exact zero_not_mem_cString str hb
  · exact absurd hquote (by decide)

/-- White space that holds no terminator holds none in either style. -/
theorem zero_not_mem_spaces {fmt : Bool} {space : List UInt8} (h : 0 ∉ space) :
    0 ∉ styled fmt space := by
  cases fmt with
  | false => exact List.not_mem_nil
  | true => exact h

/-- Elements without a terminator make a list without one. -/
theorem zero_not_mem_joined {space : List UInt8} {texts : List (List UInt8)} (hspace : 0 ∉ space)
    (h : ∀ text ∈ texts, 0 ∉ text) : 0 ∉ joined space texts := by
  induction texts with
  | nil => exact List.not_mem_nil
  | cons first texts ih =>
    cases texts with
    | nil => exact h first List.mem_cons_self
    | cons second texts =>
      have hrest := ih fun text htext => h text (List.mem_cons_of_mem _ htext)
      rw [joined_cons_cons]
      simp only [List.mem_append, List.mem_cons, not_or]
      exact ⟨⟨h first List.mem_cons_self, by decide, hspace⟩, hrest⟩

/-- A printed text has no terminator inside, by induction on the tree: the escapes of strings
leave none. -/
theorem zero_not_mem_printValue (fmt : Bool) (t : CJson) :
    ∀ depth, 0 ∉ (printValue fmt depth t).text := by
  have htabs (k : ℕ) : (0 : UInt8) ∉ List.replicate k 9 := by
    intro hzero
    exact absurd (List.eq_of_mem_replicate hzero) (by decide)
  have hline (k : ℕ) : (0 : UInt8) ∉ (10 :: List.replicate k 9) := by
    rw [List.mem_cons, not_or]
    exact ⟨by decide, htabs k⟩
  induction t using tree_induction with
  | null =>
    intro depth
    rw [printValue]
    decide
  | false =>
    intro depth
    rw [printValue]
    decide
  | true =>
    intro depth
    rw [printValue]
    decide
  | number i d =>
    intro depth
    rw [printValue]
    exact zero_not_mem_number i d
  | string s =>
    intro depth
    rw [printValue]
    exact zero_not_mem_string _
  | array children ih =>
    intro depth
    rw [printValue, printEntries_eq]
    unfold printArray
    split
    · decide
    · have hjoined : 0 ∉ joined (styled fmt [32])
          ((children.map (printValue fmt (depth + 1))).map Block.text) := by
        refine zero_not_mem_joined (zero_not_mem_spaces (by decide)) ?_
        simp only [List.forall_mem_map]
        exact fun c hc => ih c hc _
      rw [joinEntries_eq]
      simp only [List.cons_append, List.mem_cons, List.mem_append, List.not_mem_nil, not_or,
        or_false]
      exact ⟨by decide, hjoined, by decide⟩
  | object members ih =>
    intro depth
    rw [printValue, printMembers_eq]
    unfold printObject
    split
    · simp only [List.cons_append, List.mem_cons, List.mem_append, List.not_mem_nil, not_or,
        or_false]
      exact ⟨by decide, zero_not_mem_spaces (hline depth), by decide⟩
    · rename_i hne
      have hjoined : 0 ∉ joined (styled fmt (10 :: List.replicate (depth + 1) 9))
          ((members.map fun m => (printStringPtr (toBytes m.1),
            printValue fmt (depth + 1) m.2)).map (memberText fmt)) := by
        refine zero_not_mem_joined (zero_not_mem_spaces (hline _)) ?_
        simp only [List.forall_mem_map]
        intro m hm
        unfold memberText
        simp only [List.mem_append, List.mem_cons, not_or]
        exact ⟨⟨zero_not_mem_string _, by decide, zero_not_mem_spaces (by decide)⟩, ih m hm _⟩
      rw [joinMembers_eq fmt _ hne]
      simp only [List.cons_append, List.mem_cons, List.mem_append, List.not_mem_nil, not_or,
        or_false]
      exact ⟨by decide, ⟨⟨zero_not_mem_spaces (by decide), ⟨zero_not_mem_spaces (htabs _),
        hjoined⟩, zero_not_mem_spaces (by decide)⟩, zero_not_mem_spaces (htabs _)⟩, by decide⟩

/-- Both kinds of text are read to their end as the tree they were printed from, up to its
leaves. -/
theorem parseWithOpts_print (P : PowerOfTen) (fmt : Bool) {t : CJson} (h : FiniteTree t) (depth : ℕ)
    (requireNullTerminated : Bool) :
    parseWithOpts P (printValue fmt depth t).text requireNullTerminated =
      .done (some (reread P t)) [] := by
  have hread := parseValue_printed P fmt h depth _ le_rfl []
    (fun b hb => absurd hb (by simp))
  have hskip := (printValue_begins fmt depth t).1.skip []
  rw [List.append_nil] at hread hskip
  unfold parseWithOpts
  rw [cString_eq_self (zero_not_mem_printValue fmt t depth), hskip]
  dsimp only
  rw [hread]
  cases requireNullTerminated with
  | false => rfl
  | true => rfl

/-- The parser takes a printed tree at any depth and in both styles, and comes back with what
rereading the tree gives. -/
theorem cjsonParse_print (P : PowerOfTen) (fmt : Bool) {t : CJson} (h : FiniteTree t) (depth : ℕ) :
    cjsonParse P (printValue fmt depth t).text = some (reread P t) := by
  unfold cjsonParse
  rw [parseWithOpts_print P fmt h]

end IperfRuntime.JsonRoundTrip
