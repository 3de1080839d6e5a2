import JsOS.Net.Ip4Address

/-! # DNS packets

The queries that the client sends, and how it reads a response. A response is taken for a request
by its question's name: the type and the class of the question are skipped.
-/

namespace JsOS.Component.Dns

/-- `randomId`. -/
def randomId : Nat := 0x3322

/-- `queries`. The type of a name that is not listed is `undefined`, and written as 0. -/
def queries (query : String) : Nat :=
  match query with
  | "A" => 0x01
  | "NS" => 0x02
  | "CNAME" => 0x05
  | "PTR" => 0x0C
  | "MX" => 0x0F
  | "SRV" => 0x21
  | "SOA" => 0x06
  | "TXT" => 0x0A
  | _ => 0

/-- A character of `domainRegex`. -/
def isDomainChar (char : Char) : Bool :=
  ('a' ≤ char && char ≤ 'z') || ('0' ≤ char && char ≤ '9') || char = '.' || char = '-'

/-- `isDomain`. The loop over the labels returns after the first one. -/
def isDomain (domain : List Char) : Bool :=
  domain.length ≤ 255 && !domain.isEmpty && domain.all isDomainChar &&
    match domain.splitOn '.' with
    | [] => false
    | label :: _ => 1 ≤ label.length && label.length ≤ 63

/-- `setUint16`, big-endian. -/
def uint16 (number : Nat) : List UInt8 := [UInt8.ofNat (number / 256), UInt8.ofNat number]

/-- A label with its length. -/
def labelBytes (label : List Char) : List UInt8 :=
  UInt8.ofNat label.length :: label.map fun char => UInt8.ofNat char.toNat

/-- `getQuery`; without a domain the assertion fails. -/
def getQuery (domain : List Char) (query : String) : Option (List UInt8) :=
  if isDomain domain then
    some (uint16 randomId ++ uint16 0x0100 ++ uint16 1 ++ uint16 0 ++ uint16 0 ++ uint16 0 ++
      (domain.splitOn '.').flatMap labelBytes ++ [0] ++ uint16 (queries query) ++ uint16 1)
  else none

/-! ## Reading

The reader is a position in the datagram; a read past the end throws. -/

def readUint8 (u8 : List UInt8) (offset : Nat) : Option (Nat × Nat) :=
  u8[offset]?.map fun byte => (byte.toNat, offset + 1)

def readUint16 (u8 : List UInt8) (offset : Nat) : Option (Nat × Nat) := do
  let (high, offset) ← readUint8 u8 offset
  let (low, offset) ← readUint8 u8 offset
  return (high * 256 + low, offset)

def readUint32 (u8 : List UInt8) (offset : Nat) : Option (Nat × Nat) := do
  let (high, offset) ← readUint16 u8 offset
  let (low, offset) ← readUint16 u8 offset
  return (high * 65536 + low, offset)

/-- The bytes read by a number of calls of `readUint8`. -/
def readBytes (u8 : List UInt8) : Nat → Nat → Option (List Nat × Nat)
  | 0, offset => some ([], offset)
  | count + 1, offset => do
      let (byte, offset) ← readUint8 u8 offset
      let (bytes, offset) ← readBytes u8 count offset
      return (byte :: bytes, offset)

/-- `isPointer`. -/
def isPointer (value : Nat) : Bool := value &&& 0xc0 = 0xc0

/-- The loop of `readHostname`, with the rounds that it has left. A pointer is followed once, and
ends the name. -/
def readLabels (u8 : List UInt8) (follow : Nat → Option (List (List Char) × Nat)) :
    Nat → Nat → List (List Char) → Option (List (List Char) × Nat)
  | 0, offset, labels => some (labels, offset)
  | rounds + 1, offset, labels => do
      let (len, offset) ← readUint8 u8 offset
      if len = 0 then return (labels, offset)
      else if isPointer len then
        let (low, offset) ← readUint8 u8 offset
        let (rest, _) ← follow ((len - 0xc0) * 256 + low)
        return (labels ++ rest, offset)
      else
        let (bytes, offset) ← readBytes u8 len offset
        readLabels u8 follow rounds offset (labels ++ [bytes.map Char.ofNat])

/-- `readHostname`, with the calls that fit the stack: one more throws. -/
def readHostname (u8 : List UInt8) : Nat → Nat → Option (List (List Char) × Nat)
  | 0, _ => none
  | stack + 1, offset =>
      readLabels u8 (readHostname u8 stack) (u8.length - offset) offset []

/-- `join('.')`. -/
def join (labels : List (List Char)) : List Char := ['.'].intercalate labels

/-- A result of a response. -/
inductive DnsRecord where
  | a (hostname : List Char) (address : List Nat) (ttl : Nat)
  | cname (hostname name : List Char)
  deriving DecidableEq, Repr

/-- What `parseResponse` returns. -/
structure Response where
  hostname : List Char
  results : List DnsRecord
  deriving DecidableEq, Repr

/-- The loop over the answers, for `stack` calls of `readHostname`. The result is `none` inside if
the whole response is refused. -/
def readAnswers (u8 : List UInt8) (stack : Nat) :
    Nat → Nat → List DnsRecord → Option (Option (List DnsRecord))
  | 0, _, results => some (some results)
  | answers + 1, offset, results => do
      let (labels, offset) ← readHostname u8 stack offset
      let (recordType, offset) ← readUint16 u8 offset
      let (_, offset) ← readUint16 u8 offset
      let (ttl, offset) ← readUint32 u8 offset
      let (rdLen, offset) ← readUint16 u8 offset
      if recordType = queries "A" then
        if rdLen ≠ 4 then return none
        else
          let (address, offset) ← readBytes u8 4 offset
          readAnswers u8 stack answers offset (results ++ [.a (join labels) address ttl])
      else if recordType = queries "CNAME" then
        let (name, offset) ← readHostname u8 stack offset
        readAnswers u8 stack answers offset (results ++ [.cname (join labels) (join name)])
      else
        let (_, offset) ← readBytes u8 rdLen offset
        readAnswers u8 stack answers offset results

/-- The question after the header: its name, its type and its class, and where it ends. -/
def readQuestion (u8 : List UInt8) (stack : Nat) : Option (List Char × Nat × Nat × Nat) := do
  let (labels, offset) ← readHostname u8 stack 12
  let (type, offset) ← readUint16 u8 offset
  let (class_, offset) ← readUint16 u8 offset
  return (join labels, type, class_, offset)

/-- `parseResponse`: `none` if it throws, and `none` inside if it returns `null`. -/
def parseResponse (u8 : List UInt8) (stack : Nat) : Option (Option Response) := do
  let (responseRandomId, offset) ← readUint16 u8 0
  if responseRandomId ≠ randomId then return none
  else
    let (_, offset) ← readUint16 u8 offset
    let (questionsCount, offset) ← readUint16 u8 offset
    let (answersCount, offset) ← readUint16 u8 offset
    let (_, offset) ← readUint16 u8 offset
    let (_, _) ← readUint16 u8 offset
    if questionsCount ≠ 1 then return none
    else
      let (hostname, _, _, offset) ← readQuestion u8 stack
      let answers ← readAnswers u8 stack answersCount offset []
      return answers.map fun results => ⟨hostname, results⟩

end JsOS.Component.Dns
