import Refyard.Core.History
import Refyard.Reads.Head

/-! The refs and remotes that one read observed, and what history takes from them: the tips
of a walk, their fingerprint and the decoration of commits. -/
namespace Refyard

/-- Which URL a `remote -v` line was. -/
inductive RemoteUrlKind where
  | fetch
  | push
  deriving DecidableEq

structure RemoteUrlRecord where
  name : String
  url : String
  kind : RemoteUrlKind

def remoteFormat : String := "remote -v"

def planRemotes : GitPlan := .read ["remote", "-v"]

/-- What a line ends with says which URL it is. The URL is shown byte for byte. -/
def remoteUrl (rest : List Char) : Except CoreError (RemoteUrlKind × List Char) :=
  match stripSuffix " (fetch)".toList rest with
  | some url => .ok (.fetch, url)
  | none =>
      match stripSuffix " (push)".toList rest with
      | some url => .ok (.push, url)
      | none =>
          .error (.outputUnparsable remoteFormat "a remote line did not end with (fetch) or (push)")

def parseRemoteLine (line : Bytes) : Except CoreError RemoteUrlRecord := do
  let malformed : Except CoreError RemoteUrlRecord :=
    .error (.outputUnparsable remoteFormat "expected <name>\\t<url> (<kind>) per line")
  match splitOnce 0x09 line with
  | none => malformed
  | some ([], _) => malformed
  | some (name, rest) => do
      let name ← decodeAscii name remoteFormat
      let (kind, url) ← remoteUrl (rest.map byteChar)
      pure { name, url := String.ofList url, kind }

def parseRemoteList (bytes : Bytes) : Except CoreError (List RemoteUrlRecord) :=
  ((splitOnByte bytes 0x0a).filter fun line => !line.isEmpty).mapM parseRemoteLine

structure RemoteGroup where
  name : String
  fetchUrl : String
  pushUrl : Option String

def RemoteGroup.withUrl (group : RemoteGroup) (record : RemoteUrlRecord) : RemoteGroup :=
  match record.kind with
  | .fetch => { group with fetchUrl := record.url }
  | .push => { group with pushUrl := some record.url }

def groupRemote (groups : List RemoteGroup) (record : RemoteUrlRecord) : List RemoteGroup :=
  match groups.findIdx? fun group => group.name = record.name with
  | some index => groups.modify index fun group => group.withUrl record
  | none => groups ++ [RemoteGroup.withUrl ⟨record.name, record.url, none⟩ record]

def groupRemotes (records : List RemoteUrlRecord) : List RemoteGroup :=
  records.foldl groupRemote []

structure RefFacts where
  refs : List RefRecord
  remotes : List RemoteGroup

def readRefFacts (target : ReadTarget) : Read RefFacts := do
  let refBytes ← runRequired target planForEachRef forEachRef
  let refs ← .orLeave ((parseForEachRef refBytes refListMaxEntries).mapError
    (parseProblem forEachRef))
  let remoteBytes ← runRequired target planRemotes remoteFormat
  let remotes ← .orLeave ((parseRemoteList remoteBytes).mapError (parseProblem remoteFormat))
  pure { refs, remotes := groupRemotes remotes }

/-- `LIMITS.historyTipsMax`: every ref that is listed, and a detached HEAD. -/
def historyTipsMax : Nat := refListMaxEntries + 1

def RefRecord.targetOid (record : RefRecord) : String := record.peeledOid.getD record.oid

def RefRecord.isTip (record : RefRecord) : Bool :=
  "refs/heads/".toList.isPrefixOf record.refName.toList ||
    "refs/remotes/".toList.isPrefixOf record.refName.toList

def gatherTips (tips : List String) : List String → List String
  | [] => tips
  | oid :: rest =>
      if oid ∈ tips then gatherTips tips rest
      else if historyTipsMax ≤ tips.length then tips
      else gatherTips (tips ++ [oid]) rest

def collectTips (head : HeadState) (refs : List RefRecord) : List String :=
  let candidates := (refs.filter RefRecord.isTip).mergeSort fun first second =>
    first.refName ≤ second.refName
  let tips := gatherTips [] (candidates.map RefRecord.targetOid)
  match head.oid with
  | none => tips
  | some oid => if oid ∈ tips then tips else (oid :: tips).take historyTipsMax

def fingerprintOfRef (record : RefRecord) : String :=
  record.refName ++ " " ++ record.oid ++ " " ++ record.peeledOid.getD ""

/-- The refs as one text, whatever order Git listed them in. It decides `tipsMoved`. -/
def observedRefsFingerprint (head : HeadState) (refs : List RefRecord) : String :=
  head.oid.getD "" ++ "\n" ++
    "\n".intercalate ((refs.map fingerprintOfRef).mergeSort fun first second => first ≤ second)

/-- The names of the refs at an object. A tag decorates the commit it points at. -/
def decorationMap (refs : List RefRecord) (oid : String) : List String :=
  (refs.filter fun record => record.targetOid = oid).map RefRecord.refName

end Refyard
