import Mathlib.Data.List.Pairwise
import Mathlib.Data.String.Basic

/-!
# JSON text

The values a Python `json` module reads and writes, the compact writer with sorted
keys and no ASCII escapes, and the reader of `json.loads`.  A dictionary is the
list of its fields in the order of the keys, so that two dictionaries which compare
equal are the same value; a `float` is the text `repr` gives for it.  A `String`
has no lone surrogate: a text that contains one is not a value here.
-/

namespace Json

inductive Value
  | null
  | bool (b : Bool)
  | int (n : Int)
  | float (text : List Char)
  | str (s : String)
  | arr (items : List Value)
  | obj (fields : List (String × Value))
deriving Repr

/-- The part of the platform that is not spelled out here: `repr(float(text))` for a number
of the text, and the decoders for the encodings other than UTF-8. -/
inductive Encoding
  | utf32 | utf16 | utf8Sig | utf16be | utf32be | utf16le | utf32le
deriving DecidableEq, Repr

structure Host where
  floatRepr : List Char → List Char
  decode : Encoding → List UInt8 → Option (List Char)

/-! ## Writing -/

/-- The escapes of `json.dumps(…, ensure_ascii=False)`. -/
def escapeChar (c : Char) : List Char :=
  if c = '"' then ['\\','"']
  else if c = '\\' then ['\\','\\']
  else if c = '\n' then ['\\','n']
  else if c = '\r' then ['\\','r']
  else if c = '\t' then ['\\','t']
  else if c = '\x0c' then ['\\','f']
  else if c = '\x08' then ['\\','b']
  else if c.toNat < 0x20 then
    ['\\','u','0','0',Nat.digitChar (c.toNat / 16),Nat.digitChar (c.toNat % 16)]
  else [c]

def dumpString (s : String) : List Char :=
  '"' :: (s.toList.flatMap escapeChar ++ ['"'])

/-- `int.__repr__`. -/
def dumpInt (n : Int) : List Char :=
  if n < 0 then '-' :: Nat.toDigits 10 n.natAbs else Nat.toDigits 10 n.natAbs

mutual

/-- `json.dumps` with the separators `,` and `:`. -/
def dump : Value → List Char
  | .null => ['n','u','l','l']
  | .bool true => ['t','r','u','e']
  | .bool false => ['f','a','l','s','e']
  | .int n => dumpInt n
  | .float text => text
  | .str s => dumpString s
  | .arr items => '[' :: dumpItems [] items
  | .obj fields => '{' :: dumpFields [] fields

def dumpItems (separator : List Char) : List Value → List Char
  | [] => [']']
  | v :: vs => separator ++ (dump v ++ dumpItems [','] vs)

def dumpFields (separator : List Char) : List (String × Value) → List Char
  | [] => ['}']
  | (k,v) :: fs => separator ++ (dumpString k ++ ':' :: (dump v ++ dumpFields [','] fs))

end

/-- `repr` of the floats that are no number. -/
def nonFinite (text : List Char) : Bool :=
  text = ['n','a','n'] || text = ['i','n','f'] || text = ['-','i','n','f']

inductive DumpError
  | outOfRangeFloat | tooManyDigits
deriving DecidableEq, Repr

/-- `sys.get_int_max_str_digits()`. -/
def maxStrDigits : Nat := 4300

mutual

/-- What `json.dumps(…, allow_nan=False)` raises, at the first value it cannot write. -/
def dumpError : Value → Option DumpError
  | .null | .bool _ | .str _ => none
  | .int n =>
    if maxStrDigits < (Nat.toDigits 10 n.natAbs).length then some .tooManyDigits else none
  | .float text => if nonFinite text then some .outOfRangeFloat else none
  | .arr items => itemsError items
  | .obj fields => fieldsError fields

def itemsError : List Value → Option DumpError
  | [] => none
  | v :: vs => (dumpError v).or (itemsError vs)

def fieldsError : List (String × Value) → Option DumpError
  | [] => none
  | (_,v) :: fs => (dumpError v).or (fieldsError fs)

end

/-! ## Reading -/

/-- `JSONDecodeError` (or `UnicodeDecodeError`), and the `ValueError` of an integer with too
many digits. -/
inductive LoadError
  | decode | value
deriving DecidableEq, Repr

def isSpace (c : Char) : Bool :=
  c = ' ' || c = '\t' || c = '\n' || c = '\r'

def skipSpace (cs : List Char) : List Char := cs.dropWhile isSpace

def hexValue (c : Char) : Option Nat :=
  if '0' ≤ c ∧ c ≤ '9' then some (c.toNat - '0'.toNat)
  else if 'a' ≤ c ∧ c ≤ 'f' then some (c.toNat - 'a'.toNat + 10)
  else if 'A' ≤ c ∧ c ≤ 'F' then some (c.toNat - 'A'.toNat + 10)
  else none

/-- `[0-9A-Fa-f]{4}`. -/
def hex4 : List Char → Option (Nat × List Char)
  | a :: b :: c :: d :: cs => do
    let a ← hexValue a
    let b ← hexValue b
    let c ← hexValue c
    let d ← hexValue d
    some (((a * 16 + b) * 16 + c) * 16 + d,cs)
  | _ => none

/-- The second half of a surrogate pair. -/
def lowSurrogate : List Char → Option (Nat × List Char)
  | '\\' :: 'u' :: cs =>
    match hex4 cs with
    | some (n,rest) => if 0xDC00 ≤ n ∧ n ≤ 0xDFFF then some (n,rest) else none
    | none => none
  | _ => none

def scanUnicode (cs : List Char) : Except LoadError (Option Char × List Char) :=
  match hex4 cs with
  | none => .error .decode
  | some (n,rest) =>
    if 0xD800 ≤ n ∧ n ≤ 0xDBFF then
      match lowSurrogate rest with
      | some (m,rest) =>
        .ok (some (Char.ofNat (0x10000 + (n - 0xD800) * 0x400 + (m - 0xDC00))),rest)
      | none => .error .decode
    else if 0xDC00 ≤ n ∧ n ≤ 0xDFFF then .error .decode
    else .ok (some (Char.ofNat n),rest)

def backslash (e : Char) : Option Char :=
  if e = '"' then some '"'
  else if e = '\\' then some '\\'
  else if e = '/' then some '/'
  else if e = 'b' then some '\x08'
  else if e = 'f' then some '\x0c'
  else if e = 'n' then some '\n'
  else if e = 'r' then some '\r'
  else if e = 't' then some '\t'
  else none

def scanEscape : List Char → Except LoadError (Option Char × List Char)
  | [] => .error .decode
  | e :: cs =>
    if e = 'u' then scanUnicode cs
    else
      match backslash e with
      | some c => .ok (some c,cs)
      | none => .error .decode

/-- One character of a string literal, `none` at the closing quote.  The reader is strict: a
control character must be escaped. -/
def scanChar : List Char → Except LoadError (Option Char × List Char)
  | [] => .error .decode
  | c :: cs =>
    if c = '"' then .ok (none,cs)
    else if c = '\\' then scanEscape cs
    else if c.toNat < 0x20 then .error .decode
    else .ok (some c,cs)

/-- `scanstring`, after the opening quote. -/
def scanChars : Nat → List Char → Except LoadError (List Char × List Char)
  | 0, _ => .error .decode
  | fuel + 1, cs =>
    match scanChar cs with
    | .error e => .error e
    | .ok (none,rest) => .ok ([],rest)
    | .ok (some c,rest) =>
      match scanChars fuel rest with
      | .error e => .error e
      | .ok (s,rest) => .ok (c :: s,rest)

def scanString (cs : List Char) : Except LoadError (String × List Char) :=
  match scanChars (cs.length + 1) cs with
  | .error e => .error e
  | .ok (s,rest) => .ok (String.ofList s,rest)

/-- `-?(?:0|[1-9][0-9]*)`, after the sign. -/
def scanInteger : List Char → Option (List Char × List Char)
  | [] => none
  | c :: cs =>
    if c = '0' then some ([c],cs)
    else if c.isDigit then some (c :: cs.takeWhile Char.isDigit,cs.dropWhile Char.isDigit)
    else none

/-- `(\.[0-9]+)?`. -/
def scanFraction : List Char → List Char × List Char
  | '.' :: cs =>
    if cs.takeWhile Char.isDigit = [] then ([],'.' :: cs)
    else ('.' :: cs.takeWhile Char.isDigit,cs.dropWhile Char.isDigit)
  | cs => ([],cs)

def scanSign : List Char → List Char × List Char
  | '-' :: cs => (['-'],cs)
  | '+' :: cs => (['+'],cs)
  | cs => ([],cs)

/-- `([eE][-+]?[0-9]+)?`. -/
def scanExponent : List Char → List Char × List Char
  | [] => ([],[])
  | c :: cs =>
    if c = 'e' ∨ c = 'E' then
      let (sign,digits) := scanSign cs
      if digits.takeWhile Char.isDigit = [] then ([],c :: cs)
      else (c :: (sign ++ digits.takeWhile Char.isDigit),digits.dropWhile Char.isDigit)
    else ([],c :: cs)

/-- A match of the number pattern: its sign, digits and the text of fraction and exponent. -/
structure Number where
  negative : Bool
  integer : List Char
  tail : List Char
deriving DecidableEq, Repr

def scanUnsigned (negative : Bool) (cs : List Char) : Option (Number × List Char) :=
  match scanInteger cs with
  | none => none
  | some (integer,rest) =>
    some (⟨negative,integer,(scanFraction rest).1 ++ (scanExponent (scanFraction rest).2).1⟩,
      (scanExponent (scanFraction rest).2).2)

/-- `NUMBER_RE.match`. -/
def scanNumber : List Char → Option (Number × List Char)
  | '-' :: cs => scanUnsigned true cs
  | cs => scanUnsigned false cs

def Number.text (n : Number) : List Char :=
  (if n.negative then ['-'] else []) ++ (n.integer ++ n.tail)

/-- The value of a matched number: an integer unless it has a fraction or an exponent. -/
def Number.value (host : Host) (n : Number) : Except LoadError Value :=
  if n.tail ≠ [] then .ok (.float (host.floatRepr n.text))
  else if maxStrDigits < n.integer.length then .error .value
  else
    .ok (.int (if n.negative then -(Nat.ofDigitChars 10 n.integer 0 : Int)
      else Nat.ofDigitChars 10 n.integer 0))

/-- `NaN`, `Infinity` and `-Infinity`, which the reader takes too. -/
def scanConstant : List Char → Except LoadError (Value × List Char)
  | 'N' :: 'a' :: 'N' :: rest => .ok (.float ['n','a','n'],rest)
  | 'I' :: 'n' :: 'f' :: 'i' :: 'n' :: 'i' :: 't' :: 'y' :: rest =>
    .ok (.float ['i','n','f'],rest)
  | '-' :: 'I' :: 'n' :: 'f' :: 'i' :: 'n' :: 'i' :: 't' :: 'y' :: rest =>
    .ok (.float ['-','i','n','f'],rest)
  | _ => .error .decode

def scanScalar (host : Host) (cs : List Char) : Except LoadError (Value × List Char) :=
  match scanNumber cs with
  | none => scanConstant cs
  | some (n,rest) =>
    match n.value host with
    | .error e => .error e
    | .ok v => .ok (v,rest)

/-- `null`, `true`, `false` or a number. -/
def scanWord (host : Host) (cs : List Char) : Except LoadError (Value × List Char) :=
  match cs with
  | 'n' :: 'u' :: 'l' :: 'l' :: rest => .ok (.null,rest)
  | 't' :: 'r' :: 'u' :: 'e' :: rest => .ok (.bool true,rest)
  | 'f' :: 'a' :: 'l' :: 's' :: 'e' :: rest => .ok (.bool false,rest)
  | _ => scanScalar host cs

/-- A field set in a dictionary; the last value of a repeated key stays. -/
def insertField (k : String) (v : Value) : List (String × Value) → List (String × Value)
  | [] => [(k,v)]
  | (k',v') :: fs =>
    if k < k' then (k,v) :: (k',v') :: fs
    else if k = k' then (k,v) :: fs
    else (k',v') :: insertField k v fs

/-- `dict(pairs)`. -/
def ofPairs (pairs : List (String × Value)) : List (String × Value) :=
  pairs.foldl (fun fields pair => insertField pair.1 pair.2 fields) []

mutual

/-- `scan_once`. -/
def scanValue (host : Host) : Nat → List Char → Except LoadError (Value × List Char)
  | 0, _ => .error .decode
  | _, [] => .error .decode
  | fuel + 1, c :: cs =>
    if c = '"' then
      match scanString cs with
      | .error e => .error e
      | .ok (s,rest) => .ok (.str s,rest)
    else if c = '{' then
      match skipSpace cs with
      | '}' :: rest => .ok (.obj [],rest)
      | '"' :: rest =>
        match scanFields host fuel rest with
        | .error e => .error e
        | .ok (pairs,rest) => .ok (.obj (ofPairs pairs),rest)
      | _ => .error .decode
    else if c = '[' then
      match skipSpace cs with
      | ']' :: rest => .ok (.arr [],rest)
      | rest =>
        match scanItems host fuel rest with
        | .error e => .error e
        | .ok (items,rest) => .ok (.arr items,rest)
    else scanWord host (c :: cs)

/-- The items of an array, from the first one to the closing bracket. -/
def scanItems (host : Host) : Nat → List Char → Except LoadError (List Value × List Char)
  | 0, _ => .error .decode
  | fuel + 1, cs =>
    match scanValue host fuel cs with
    | .error e => .error e
    | .ok (v,rest) =>
      match skipSpace rest with
      | ']' :: rest => .ok ([v],rest)
      | ',' :: rest =>
        match scanItems host fuel (skipSpace rest) with
        | .error e => .error e
        | .ok (vs,rest) => .ok (v :: vs,rest)
      | _ => .error .decode

/-- The fields of an object, from behind the quote of the first key to the closing brace. -/
def scanFields (host : Host) : Nat → List Char →
    Except LoadError (List (String × Value) × List Char)
  | 0, _ => .error .decode
  | fuel + 1, cs =>
    match scanString cs with
    | .error e => .error e
    | .ok (k,rest) =>
      match skipSpace rest with
      | ':' :: rest =>
        match scanValue host fuel (skipSpace rest) with
        | .error e => .error e
        | .ok (v,rest) =>
          match skipSpace rest with
          | '}' :: rest => .ok ([(k,v)],rest)
          | ',' :: rest =>
            match skipSpace rest with
            | '"' :: rest =>
              match scanFields host fuel rest with
              | .error e => .error e
              | .ok (fs,rest) => .ok ((k,v) :: fs,rest)
            | _ => .error .decode
          | _ => .error .decode
      | _ => .error .decode

end

/-- `JSONDecoder.decode`.  A value of a text takes at most two calls for each of its
characters. -/
def parse (host : Host) (text : List Char) : Except LoadError Value :=
  match scanValue host (2 * text.length + 2) (skipSpace text) with
  | .error e => .error e
  | .ok (v,rest) => if skipSpace rest = [] then .ok v else .error .decode

/-- `json.detect_encoding`; `none` is UTF-8. -/
def detectEncoding (bytes : List UInt8) : Option Encoding :=
  if [0x00,0x00,0xFE,0xFF] <+: bytes ∨ [0xFF,0xFE,0x00,0x00] <+: bytes then some .utf32
  else if [0xFE,0xFF] <+: bytes ∨ [0xFF,0xFE] <+: bytes then some .utf16
  else if [0xEF,0xBB,0xBF] <+: bytes then some .utf8Sig
  else
    match bytes with
    | [a,b] => if a = 0 then some .utf16be else if b = 0 then some .utf16le else none
    | a :: b :: c :: d :: _ =>
      if a = 0 then some (if b ≠ 0 then .utf16be else .utf32be)
      else if b = 0 then some (if c ≠ 0 ∨ d ≠ 0 then .utf16le else .utf32le)
      else none
    | _ => none

def utf8Encode (text : List Char) : List UInt8 := text.flatMap String.utf8EncodeChar

def utf8Decode (bytes : List UInt8) : Option (List Char) :=
  bytes.toByteArray.utf8Decode?.map Array.toList

/-- `json.loads` of bytes. -/
def loads (host : Host) (bytes : List UInt8) : Except LoadError Value :=
  let text :=
    match detectEncoding bytes with
    | some encoding => host.decode encoding bytes
    | none => utf8Decode bytes
  match text with
  | none => .error .decode
  | some text => parse host text

end Json
