import OperatorRecovery.JsonReader
import OperatorRecovery.JsonRecord

/-!
Types with a serialized form. Reading is told where the value comes from and how
many arrays and objects may still be opened. A value in memory may be as deep as
it likes, whereas a text may nest 127 arrays and objects.
-/

namespace OperatorRecovery

class Serialized (α : Type) where
  toJson : α → Json
  ofJson? : Json.Source → Nat → Json → Option α

namespace Serialized

def nestingLimit : Nat := 127

def decode? [Serialized α] (j : Json) : Option α := ofJson? .memory j.depth j

def read? [Serialized α] (text : String) : Option α :=
  (JsonReader.read text).bind (ofJson? .text nestingLimit)

end Serialized

end OperatorRecovery
