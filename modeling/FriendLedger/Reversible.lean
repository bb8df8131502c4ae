import FriendLedger.Book

/-! Reversible operations. One is built unperformed; performing it writes to the
book and keeps what its reversal has to know, reversing it restores what was
there before. A call that fails leaves the operation as it was. -/

namespace FriendLedger

set_option autoImplicit false

/-- Operations of the type `Op`, which answer a value of the type `Out` when they
are performed. -/
class Reversible (Op : Type) (Out : outParam Type) where
  perform : Op → Book → Except Failure Out × Op × Book
  reverse : Op → Book → Except Failure Unit × Op × Book
  describe : Op → String

def alreadyPerformed (description : String) : Failure :=
  .compensation (description ++ " already performed")

def notPerformed (description : String) : Failure :=
  .compensation (description ++ " was not performed")

end FriendLedger
