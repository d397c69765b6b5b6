import StateMachines.Descriptor.Basic

/-!
# The written form of a descriptor

A descriptor is written as its name, its subsystem, its state table and the events handled in
every state; what else it holds is hinted at by two dots. Names are quoted, and are written
without escapes: the form is meant for names in printable ASCII without quotes and backslashes.
-/

namespace StateMachines

/-- A name between double quotes. -/
def quoteName (name : String) : String := "\"" ++ name ++ "\""

/-- The written form of a row. -/
def StateRow.toText (row : StateRow) : String :=
  "StateSpec \x7b name: " ++ quoteName row.name ++ ", in_event_mask: " ++ row.events.toText ++
    ", out_state_mask: " ++ row.out.toText ++ " \x7d"

/-- The written form of a descriptor. -/
def Descriptor.toText (d : Descriptor) : String :=
  "FsmDescriptor \x7b name: " ++ quoteName d.name ++ ", log_subsys: " ++ quoteName d.subsystem ++
    ", states: [" ++ ", ".intercalate (d.states.map StateRow.toText) ++
    "], allstate_event_mask: " ++ d.allStates.toText ++ ", .. \x7d"

end StateMachines
