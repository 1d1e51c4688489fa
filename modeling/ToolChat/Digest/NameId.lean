import ToolChat.Digest.Sha1

/-!
Stable identifiers of type names.

The identifier of a name is its name-based UUID, version 5, in the name space of object identifiers:
the first sixteen bytes of a SHA-1 digest with the version and the variant set, in hexadecimal. The
same name has the same identifier in every program.
-/

set_option autoImplicit false

namespace ToolChat

namespace NameId

def objectIdentifiers : List UInt8 :=
  [0x6B, 0xA7, 0xB8, 0x12, 0x9D, 0xAD, 0x11, 0xD1, 0x80, 0xB4, 0x00, 0xC0, 0x4F, 0xD4, 0x30, 0xC8]

def hexDigit (n : Nat) : Char :=
  Nat.digitChar n

def hexByte (b : UInt8) : List Char :=
  [hexDigit (b.toNat / 16), hexDigit (b.toNat % 16)]

/-- Sets the version in byte 6 and the variant in byte 8. -/
def stamp (bytes : List UInt8) : List UInt8 :=
  bytes.zipIdx.map fun (b, i) =>
    if i = 6 then (b &&& 0x0F) ||| 0x50 else if i = 8 then (b &&& 0x3F) ||| 0x80 else b

def grouped (bytes : List UInt8) : String :=
  let group (start count : Nat) := String.ofList (((bytes.drop start).take count).flatMap hexByte)
  "-".intercalate [group 0 4, group 4 2, group 6 2, group 8 2, group 10 6]

end NameId

/-- The identifier under which a type of the given name is referred to. -/
def referenceId (name : String) : String :=
  NameId.grouped (NameId.stamp
    ((Sha1.digest (NameId.objectIdentifiers ++ name.toUTF8.toList)).take 16))

end ToolChat
