import Refyard.Foundation.Machine
import Refyard.Foundation.Utf8

/-! The decoder of the Encoding standard, fed a stream in pieces. A byte order mark at the
beginning of the stream is not passed on. -/
namespace Refyard

structure TextDecoder where
  pending : Option Utf8.Pending := none
  bomSeen : Bool := false

namespace TextDecoder

def serialize (bomSeen : Bool) : List Char → Bool × List Char
  | [] => (bomSeen, [])
  | first :: rest =>
      if bomSeen then (true, first :: rest)
      else if first.toNat = 0xfeff then (true, rest)
      else (true, first :: rest)

def decoding : Machine TextDecoder UInt8 (List Char) where
  step decoder byte :=
    let (chars, pending) := Utf8.next decoder.pending byte.toNat
    let (bomSeen, chars) := serialize decoder.bomSeen chars
    ({ pending, bomSeen }, chars)

/-- `decode` of a piece of a stream. -/
def decode (decoder : TextDecoder) (bytes : Bytes) : TextDecoder × List Char :=
  (decoding.after decoder bytes, (decoding.outputs decoder bytes).flatten)

theorem decode_append (decoder : TextDecoder) (first second : Bytes) :
    decoder.decode (first ++ second) = (((decoder.decode first).1.decode second).1,
        (decoder.decode first).2 ++ ((decoder.decode first).1.decode second).2) := by
  unfold decode
  rw [Machine.after_append, Machine.outputs_append, List.flatten_append]

end TextDecoder
end Refyard
