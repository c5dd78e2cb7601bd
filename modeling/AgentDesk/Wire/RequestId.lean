/-! Ids that tell requests apart: random ones in the usual form of 36 characters. -/
namespace AgentDesk.Wire

def hexByte (b : UInt8) : List Char := [Nat.digitChar (b.toNat / 16), Nat.digitChar (b.toNat % 16)]

/-- Bytes with the marks of a random id: version 4 in the seventh, the variant in the ninth. -/
def markRandom (bytes : List UInt8) : List UInt8 :=
  bytes.mapIdx fun i b =>
    if i = 6 then b &&& 0x0F ||| 0x40 else if i = 8 then b &&& 0x3F ||| 0x80 else b

/-- The id that sixteen random bytes make. -/
def requestId (bytes : List UInt8) : String :=
  let hex (bs : List UInt8) : String := String.ofList (bs.flatMap hexByte)
  let bs := markRandom bytes
  String.intercalate "-"
    [hex (bs.take 4), hex ((bs.drop 4).take 2), hex ((bs.drop 6).take 2), hex ((bs.drop 8).take 2),
     hex ((bs.drop 10).take 6)]

end AgentDesk.Wire
