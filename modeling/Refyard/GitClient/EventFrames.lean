import Refyard.Core.Bytes
import Refyard.Foundation.InsertionMap
import Refyard.Foundation.Json
import Refyard.Foundation.StreamDecoder
import Refyard.Foundation.TextDecoder

/-! The body of an event stream: bytes are decoded as they come, and frames end with a blank
line. The frames do not depend on how the body was cut. -/
namespace Refyard.GitClient

def splitAtBlank : List Char → Option (List Char × List Char)
  | [] => none
  | '\n' :: '\n' :: rest => some ([], rest)
  | char :: rest => (splitAtBlank rest).map fun parts => (char :: parts.1, parts.2)

theorem length_of_splitAtBlank {buffer frame rest : List Char}
    (split : splitAtBlank buffer = some (frame, rest)) : rest.length < buffer.length := by
  induction buffer using splitAtBlank.induct generalizing frame with
  | case1 => cases split
  | case2 tail =>
    cases split
    simp only [List.length_cons]
    omega
  | case3 char tail other ih =>
    rw [splitAtBlank] at split
    · obtain ⟨parts, found, same⟩ := Option.map_eq_some_iff.mp split
      cases same
      have := ih found
      simp only [List.length_cons]
      omega
    · exact other

theorem splitAtBlank_append {buffer frame rest : List Char}
    (split : splitAtBlank buffer = some (frame, rest)) (more : List Char) :
    splitAtBlank (buffer ++ more) = some (frame, rest ++ more) := by
  induction buffer using splitAtBlank.induct generalizing frame with
  | case1 => cases split
  | case2 tail =>
    cases split
    rfl
  | case3 char tail other ih =>
    rw [splitAtBlank] at split
    · obtain ⟨parts, found, same⟩ := Option.map_eq_some_iff.mp split
      cases same
      rw [List.cons_append, splitAtBlank, ih found]
      · rfl
      · intro behind first second
        cases tail with
        | nil => cases found
        | cons head tail =>
          cases second
          exact other tail first rfl
    · exact other

def framing : Framing Unit Char Empty (List Char) where
  read _ buffer :=
    match splitAtBlank buffer with
    | none => .wait
    | some (frame, rest) => .advance () [frame] rest
  shorter := by
    intro mode buffer next out rest reads
    cases split : splitAtBlank buffer with
    | none =>
      rw [split] at reads
      cases reads
    | some parts =>
      rw [split] at reads
      cases reads
      exact length_of_splitAtBlank split
  stable := by
    intro mode buffer decided more
    cases split : splitAtBlank buffer with
    | none =>
      rw [split] at decided
      exact absurd rfl decided
    | some parts =>
      rw [splitAtBlank_append split]
      rfl

structure Body where
  decoder : TextDecoder := {}
  buffer : List Char := []

namespace Body

def takeFrames (buffer : List Char) : List (List Char) × List Char :=
  match framing.drain ⟨(), buffer⟩ with
  | .ok (frames, rest) => (frames, rest.buffer)
  | .error impossible => nomatch impossible

def push (body : Body) (bytes : Bytes) : Body × List (List Char) :=
  let (decoder, chars) := body.decoder.decode bytes
  let (frames, buffer) := takeFrames (body.buffer ++ chars)
  ({ decoder, buffer }, frames)

theorem takeFrames_append (buffer more : List Char) : takeFrames (buffer ++ more) =
      ((takeFrames buffer).1 ++ (takeFrames ((takeFrames buffer).2 ++ more)).1,
        (takeFrames ((takeFrames buffer).2 ++ more)).2) := by
  have fed := framing.drain_feed ⟨(), buffer⟩ more
  unfold takeFrames
  unfold Pending.feed at fed
  rw [fed]
  cases drained : framing.drain ⟨(), buffer⟩ with
  | error impossible => cases impossible
  | ok decoded =>
    obtain ⟨frames, rest⟩ := decoded
    dsimp only
    cases framing.drain ⟨rest.mode, rest.buffer ++ more⟩ with
    | error impossible => cases impossible
    | ok later => rfl

theorem push_append (body : Body) (first second : Bytes) :
    body.push (first ++ second) = (((body.push first).1.push second).1,
        (body.push first).2 ++ ((body.push first).1.push second).2) := by
  unfold push
  rw [TextDecoder.decode_append]
  dsimp only
  rw [← List.append_assoc, takeFrames_append]

end Body

/-- What a frame says: nothing to act on, something unparsable, a gap or an event. -/
inductive Reading where
  | nothing
  | unparsable
  | gap (sequence fromSequence toSequence : Int)
  | event (sequence : Int) (envelope : Json)

def member? (name : String) : Json → Option Json
  | .object members => (lastOf Prod.fst members name).map Prod.snd
  | _ => none

def numberOr (default : Int) : Option Json → Int
  | some (.number value) => value
  | _ => default

def stringIs (text : String) : Option Json → Bool
  | some (.string value) => value = text
  | _ => false

/-- The data lines of a frame, without their name and the spaces before the value. -/
def dataLines (frame : List Char) : List (List Char) :=
  (frame.splitOn '\n').filterMap fun line =>
    if line.head? = some ':' then none
    else if "data:".toList.isPrefixOf line then
      some ((line.drop 5).dropWhile isTrimmed)
    else none

def readEnvelope (parsed : Json) : Reading :=
  match member? "sequence" parsed, member? "payload" parsed with
  | some (.number sequence), some payload =>
      match payload with
      | .object _ =>
          if stringIs "eventGap" (member? "kind" payload) then
            .gap sequence (numberOr 0 (member? "fromSequence" payload))
              (numberOr sequence (member? "toSequence" payload))
          else .event sequence parsed
      | .array _ => .event sequence parsed
      | _ => .nothing
  | _, _ => .nothing

def readFrame (frame : List Char) : Reading :=
  if dataLines frame = [] then .nothing
  else
    match Json.parse (List.intercalate ['\n'] (dataLines frame)) with
    | none => .unparsable
    | some parsed => readEnvelope parsed

end Refyard.GitClient
