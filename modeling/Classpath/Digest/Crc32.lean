import Classpath.Bytes

/-!
The cyclic redundancy check of archives: the remainder modulo the reflected polynomial EDB88320,
with the register inverted before and after.
-/

set_option autoImplicit false

namespace Classpath.Digest.Crc32

def shift (register : UInt32) : UInt32 :=
  if register &&& 1 = 1 then (register >>> 1) ^^^ 0xEDB88320 else register >>> 1

def update (register : UInt32) (byte : UInt8) : UInt32 :=
  Nat.repeat shift 8 (register ^^^ byte.toUInt32)

def checksum (bytes : Bytes) : UInt32 := bytes.foldl update 0xFFFFFFFF ^^^ 0xFFFFFFFF

end Classpath.Digest.Crc32
