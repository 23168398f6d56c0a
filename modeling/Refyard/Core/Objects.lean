import Refyard.Core.CatFile

/-! Commit and tag objects. A header line that begins with a space goes on with the
header before it, and the message starts behind the first blank line. -/
namespace Refyard

def commitFormat : String := "commit object"

def tagFormat : String := "tag object"

structure CommitIdentity where
  nameBytes : Bytes
  emailBytes : Bytes
  timestamp : Int
  timezoneOffset : String
  deriving DecidableEq

structure CommitObject where
  treeOid : String
  parentOids : List String
  author : CommitIdentity
  committer : CommitIdentity
  encoding : Option String
  signed : Bool
  messageBytes : Bytes

structure TagObject where
  objectOid : String
  objectType : String
  tagName : String
  tagger : Option CommitIdentity
  signed : Bool
  messageBytes : Bytes
  deriving DecidableEq

def joinLine (headers : List Bytes) (line : Bytes) : List Bytes :=
  if line.head? = some 0x20 then
    match headers.getLast? with
    | some previous => headers.dropLast ++ [previous ++ 0x0a :: line]
    | none => [line]
  else headers ++ [line]

/-- The loop of `split_object_body`, with the line read so far. It answers with the
message itself where the source answers with its offset. -/
def splitLines (format : String) (headers : List Bytes) (line : Bytes) :
    Bytes → Except CoreError (List Bytes × Bytes)
  | [] =>
      if line.isEmpty then .ok (headers, [])
      else
        .error (.outputUnparsable format
          "object body has a trailing header line without a newline")
  | byte :: rest =>
      if byte ≠ 0x0a then splitLines format headers (line ++ [byte]) rest
      else if line.isEmpty then .ok (headers, rest)
      else splitLines format (joinLine headers line) [] rest

def splitObjectBody (body : Bytes) (format : String) : Except CoreError (List Bytes × Bytes) :=
  splitLines format [] [] body

/-- The bytes behind the key and a space, when the header starts with exactly that. -/
def headerBodyAfterKey (header key : Bytes) : Option Bytes :=
  if header.length ≤ key.length || !key.isPrefixOf header || header[key.length]? ≠ some 0x20 then
    none
  else some (header.drop (key.length + 1))

def headerValue (headers : List Bytes) (key : String) : Option Bytes :=
  headers.findSome? fun header => headerBodyAfterKey header (asciiBytes key)

def headerValues (headers : List Bytes) (key : String) : List Bytes :=
  headers.filterMap fun header => headerBodyAfterKey header (asciiBytes key)

def hasHeader (headers : List Bytes) (key : String) : Bool := (headerValue headers key).isSome

def unrecognisedTail (text format : String) : CoreError :=
  .outputUnparsable format s!"unrecognised identity tail '{text}'"

def isZoneOffset (offset : List Char) : Bool :=
  match offset with
  | sign :: digits => (sign = '+' || sign = '-') && digits.length = 4 && digits.all Char.isDigit
  | [] => false

/-- Git's identity tail. A timestamp that no `i64` can hold is refused. -/
def parseIdentityTail (text format : String) : Except CoreError (Int × String) :=
  match text.toList with
  | ' ' :: rest =>
      match splitOnce ' ' rest with
      | none => .error (unrecognisedTail text format)
      | some (seconds, offset) =>
          if seconds.isEmpty || !seconds.all Char.isDigit then
            .error (unrecognisedTail text format)
          else if !isZoneOffset offset then .error (unrecognisedTail text format)
          else if 2 ^ 63 ≤ decimalValue seconds then .error (unrecognisedTail text format)
          else .ok (decimalValue seconds, String.ofList offset)
  | _ => .error (unrecognisedTail text format)

def trimSeparator (bytes : Bytes) : Bytes :=
  if bytes.getLast? = some 0x20 then bytes.dropLast else bytes

def parseIdentity (bytes : Bytes) (format : String) : Except CoreError CommitIdentity :=
  match rsplitOnce 0x3e bytes with
  | none => .error (.outputUnparsable format "identity line has no '>'")
  | some (address, tail) =>
      match rsplitOnce 0x3c address with
      | none => .error (.outputUnparsable format "identity line has no '<' before its '>'")
      | some (name, email) => do
          let rest ← decodeAscii tail format
          let (timestamp, timezoneOffset) ← parseIdentityTail rest format
          .ok { nameBytes := trimSeparator name, emailBytes := email, timestamp, timezoneOffset }

def parseObjectName (bytes : Bytes) (format what : String) : Except CoreError String := do
  let text ← decodeAscii bytes format
  if isObjectName (asciiBytes text) then .ok text
  else .error (.outputUnparsable format s!"unexpected {what} object name '{text}'")

def commitUnparsable (detail : String) : CoreError := .outputUnparsable commitFormat detail

def parseEncoding (headers : List Bytes) : Except CoreError (Option String) :=
  match headerValue headers "encoding" with
  | none => .ok none
  | some bytes => (decodeAscii bytes commitFormat).map some

def parseCommitObject (body : Bytes) : Except CoreError CommitObject := do
  let (headers, messageBytes) ← splitObjectBody body commitFormat
  match headerValue headers "tree", headerValue headers "author", headerValue headers "committer"
    with
  | none, _, _ => .error (commitUnparsable "commit has no tree header")
  | some tree, some author, some committer => do
      let treeOid ← parseObjectName tree commitFormat "tree"
      let parentOids ← (headerValues headers "parent").mapM fun parent =>
        parseObjectName parent commitFormat "parent"
      let encoding ← parseEncoding headers
      let author ← parseIdentity author commitFormat
      let committer ← parseIdentity committer commitFormat
      .ok { treeOid, parentOids, author, committer, encoding,
            signed := hasHeader headers "gpgsig", messageBytes }
  | _, _, _ => .error (commitUnparsable "commit has no author or committer header")

def parseTagger (headers : List Bytes) : Except CoreError (Option CommitIdentity) :=
  match headerValue headers "tagger" with
  | none => .ok none
  | some bytes => (parseIdentity bytes tagFormat).map some

def parseTagObject (body : Bytes) : Except CoreError TagObject := do
  let (headers, messageBytes) ← splitObjectBody body tagFormat
  match headerValue headers "object", headerValue headers "type", headerValue headers "tag" with
  | some object, some objectType, some tagName => do
      let tagger ← parseTagger headers
      let objectOid ← parseObjectName object tagFormat "target"
      let objectType ← decodeAscii objectType tagFormat
      let tagName ← decodeAscii tagName tagFormat
      .ok { objectOid, objectType, tagName, tagger,
            signed := hasHeader headers "gpgsig", messageBytes }
  | _, _, _ =>
      .error (.outputUnparsable tagFormat "annotated tag is missing object, type or tag")

end Refyard
