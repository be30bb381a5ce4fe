namespace BitStore

/-!
# Write modes

A durable file answers a write only after the data are on stable storage; a
buffered one leaves that to the system, and is synchronised when it is closed.
What a file holds does not depend on the mode.
-/

/-- When written data reach stable storage. -/
inductive WriteMode where
  | durable
  | buffered
  deriving DecidableEq, Repr, Inhabited

namespace WriteMode

/-- The name of a mode in records. -/
def label : WriteMode -> String
  | .durable => "Durable"
  | .buffered => "Buffered"

/-- The name of a mode in configurations. -/
def name : WriteMode -> String
  | .durable => "durable"
  | .buffered => "buffered"

def ofName? (name : String) : Option WriteMode :=
  [WriteMode.durable, .buffered].find? fun mode => mode.name == name

end WriteMode
end BitStore
