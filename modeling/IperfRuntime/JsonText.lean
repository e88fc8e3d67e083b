import IperfRuntime.JsonStrings
import IperfRuntime.ServerOutput

/-!
# JSON texts

`print_value` and `parse_value` with the functions for arrays and objects, and the entry
points of both directions. Allocation does not fail, and the stack is deep enough. A tree of
rationals cannot hold an infinity or a NaN: the parser goes on behind such a number as the code
does, but the tree that it builds is `none`.
-/

namespace IperfRuntime.JsonText

open ByteOrder JsonTree JsonFraming ServerOutput JsonNumbers JsonStrings PrintfText TestParameters

/-- `cJSON_strdup` of a literal. -/
def strdupLiteral (s : String) : Block := ⟨s.toList.length + 1, bytes (lit s)⟩

/-- `print_number` with its block. -/
def numberBlock (valueint : ℤ) (d : ℚ) : Block :=
  ⟨if d = 0 then 2 else 64, bytes (printNumber valueint d)⟩

/-- Whitespace that is written in the formatted style only. -/
def styled (fmt : Bool) (space : List UInt8) : List UInt8 := if fmt then space else []

/-- The entries of an array with what stands between them. -/
def joinEntries (fmt : Bool) : List Block → List UInt8
  | [] => []
  | [entry] => entry.text
  | entry :: entries => entry.text ++ byte ',' :: styled fmt [32] ++ joinEntries fmt entries

/-- A loop that adds lengths to an `int`. -/
def addLengths {α : Type*} (length : α → ℕ) (start : ℕ) (items : List α) : ℤ :=
  items.foldl (fun len item => toInt (len + length item)) (toInt start)

/-- `strlen(ret)+2+(fmt?1:0)`. -/
def entryLength (fmt : Bool) (entry : Block) : ℕ := entry.text.length + 2 + if fmt then 1 else 0

/-- `print_array`, once its entries are printed. -/
def printArray (fmt : Bool) (entries : List Block) : Block :=
  if entries = [] then ⟨3, [byte '[', byte ']']⟩
  else
    ⟨mallocSize (addLengths (entryLength fmt) 5 entries),
      byte '[' :: joinEntries fmt entries ++ [byte ']']⟩

/-- The members of an object, each a name and an entry, at a depth. -/
def joinMembers (fmt : Bool) (depth : ℕ) : List (Block × Block) → List UInt8
  | [] => []
  | (name, entry) :: members =>
    styled fmt (List.replicate depth 9) ++ name.text ++ byte ':' :: styled fmt [9] ++ entry.text ++
      (if members = [] then [] else [byte ',']) ++ styled fmt [10] ++ joinMembers fmt depth members

/-- `strlen(ret)+strlen(str)+2+(fmt?2+depth:0)`. -/
def memberLength (fmt : Bool) (depth : ℕ) (m : Block × Block) : ℕ :=
  m.2.text.length + m.1.text.length + 2 + if fmt then 2 + depth else 0

/-- `print_object`, once its members are printed one level deeper. -/
def printObject (fmt : Bool) (depth : ℕ) (members : List (Block × Block)) : Block :=
  if members = [] then
    ⟨mallocSize (toInt (if fmt then depth + 4 else 3 : ℕ)),
      byte '{' :: styled fmt (10 :: List.replicate depth 9) ++ [byte '}']⟩
  else
    ⟨mallocSize (addLengths (memberLength fmt (depth + 1)) (7 + if fmt then depth + 1 else 0)
        members),
      byte '{' :: styled fmt [10] ++ joinMembers fmt (depth + 1) members ++
        styled fmt (List.replicate depth 9) ++ [byte '}']⟩

mutual

/-- `print_value`. -/
def printValue (fmt : Bool) (depth : ℕ) : CJson → Block
  | .null => strdupLiteral "null"
  | .false => strdupLiteral "false"
  | .true => strdupLiteral "true"
  | .number valueint valuedouble => numberBlock valueint valuedouble
  | .string valuestring => printStringPtr (toBytes valuestring)
  | .array children => printArray fmt (printEntries fmt (depth + 1) children)
  | .object members => printObject fmt depth (printMembers fmt (depth + 1) members)

/-- The loop over the children of an array. -/
def printEntries (fmt : Bool) (depth : ℕ) : List CJson → List Block
  | [] => []
  | child :: children => printValue fmt depth child :: printEntries fmt depth children

/-- The loop over the children of an object. -/
def printMembers (fmt : Bool) (depth : ℕ) : List (String × CJson) → List (Block × Block)
  | [] => []
  | (name, child) :: members =>
    (printStringPtr (toBytes name), printValue fmt depth child) :: printMembers fmt depth members

end

/-- `cJSON_PrintUnformatted`. -/
def cjsonPrintUnformatted (item : CJson) : List UInt8 := (printValue false 0 item).text

/-- `skip`. -/
def skip (text : List UInt8) : List UInt8 := text.dropWhile fun b => decide (b ≤ 32)

section Sequences

variable {α : Type*} (element : List UInt8 → Parsed α) (close : UInt8)

/-- The elements of an array or an object up to the closing bracket; the first argument
bounds their number. -/
def parseSequence : ℕ → List UInt8 → Parsed (List α)
  | 0, _ => .exhausted
  | n + 1, value =>
    (element value).bind fun child rest =>
      match skip rest with
      | [] => .malformed []
      | b :: rest =>
        if b = byte ',' then
          (parseSequence n (skip rest)).bind fun children rest => .done (child :: children) rest
        else if b = close then .done [child] rest
        else .malformed (b :: rest)

/-- What stands behind the opening bracket. -/
def parseBracket (rest : List UInt8) : Parsed (List α) :=
  match skip rest with
  | [] => parseSequence element close 1 []
  | b :: rest =>
    if b = close then .done [] rest
    else parseSequence element close (rest.length + 2) (b :: rest)

end Sequences

/-- The parts of a tree, when all of them have a value. -/
def together {α : Type*} : List (Option α) → Option (List α)
  | [] => some []
  | part :: parts => part.bind fun a => (together parts).map (a :: ·)

/-- A name, a colon and a value. -/
def parseMember (parseValue : List UInt8 → Parsed (Option CJson)) (value : List UInt8) :
    Parsed (Option (String × CJson)) :=
  (parseString value).bind fun name rest =>
    match skip rest with
    | [] => .malformed []
    | b :: rest =>
      if b ≠ byte ':' then .malformed (b :: rest)
      else (parseValue (skip rest)).bind fun child rest =>
        .done (child.map fun c => (ofBytes name, c)) rest

/-- `parse_value`; the first argument bounds the nesting. -/
def parseValue (P : PowerOfTen) : ℕ → List UInt8 → Parsed (Option CJson)
  | 0, _ => .exhausted
  | depth + 1, value =>
    if (bytes (lit "null")).isPrefixOf value then .done (some .null) (value.drop 4)
    else if (bytes (lit "false")).isPrefixOf value then .done (some .false) (value.drop 5)
    else if (bytes (lit "true")).isPrefixOf value then .done (some .true) (value.drop 4)
    else
      match value with
      | [] => .malformed []
      | b :: rest =>
        if b = byte '"' then
          (parseString (b :: rest)).bind fun s rest => .done (some (.string (ofBytes s))) rest
        else if b = byte '-' ∨ isDigit b = true then
          .done (parseNumber P (b :: rest)).1 (parseNumber P (b :: rest)).2
        else if b = byte '[' then
          (parseBracket (parseValue P depth) (byte ']') rest).bind fun children rest =>
            .done ((together children).map .array) rest
        else if b = byte '{' then
          (parseBracket (parseMember (parseValue P depth)) (byte '}') rest).bind fun members rest =>
            .done ((together members).map .object) rest
        else .malformed (b :: rest)

/-- `cJSON_ParseWithOpts`: the tree, and where the text goes on behind it. -/
def parseWithOpts (P : PowerOfTen) (value : List UInt8) (requireNullTerminated : Bool) :
    Parsed (Option CJson) :=
  let text := skip (cString value)
  (parseValue P (text.length + 1) text).bind fun c rest =>
    if requireNullTerminated then
      match skip rest with
      | [] => .done c []
      | b :: rest => .malformed (b :: rest)
    else .done c rest

/-- `cJSON_Parse` of a text whose numbers are finite; `none` as well where one is not. -/
def cjsonParse (P : PowerOfTen) (value : List UInt8) : Option CJson :=
  match parseWithOpts P value false with
  | .done c _ => c
  | _ => none

end IperfRuntime.JsonText
