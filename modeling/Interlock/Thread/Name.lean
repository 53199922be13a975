/-!
# Thread names

A name is cut at its first NUL. The operating system keeps fifteen bytes of what is left, which
may end inside a character.

  * `ThreadName.untilNul`: the part before the first NUL;
  * `ThreadName.terminated?`: bytes as the operating system takes them, up to a NUL that ends
    them, so that none may be among them;
  * `ThreadName.osBytes`: the bytes that the operating system is given.
-/

namespace Interlock
namespace ThreadName

/-- The bytes of a name that the operating system keeps. -/
def osLimit : Nat := 15

/-- Whether a name has a NUL, so that part of it is lost. -/
def hasNul (name : String) : Bool :=
  name.toList.contains '\x00'

/-- The part of a name before its first NUL. -/
def untilNul (name : String) : String :=
  String.ofList (name.toList.takeWhile (· != '\x00'))

def bytes (name : String) : List UInt8 :=
  name.toList.flatMap String.utf8EncodeChar

/-- Bytes that a NUL may end: those without a NUL among them. -/
def terminated? (bs : List UInt8) : Option (List UInt8) :=
  if bs.contains 0 then none else some bs

/-- The bytes of a name that the operating system is given; none if a NUL were among them. -/
def osBytes (name : String) : List UInt8 :=
  (terminated? ((bytes (untilNul name)).take osLimit)).getD []

end ThreadName
end Interlock
