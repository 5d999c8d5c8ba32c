import PrimScript.Value.Basic

/-! Entities: the agents and objects of a region, as sensors see them and as events that have
detected them carry them. -/

namespace PrimScript

structure Entity where
  name : String
  key : String
  owner : String
  /-- The kinds of thing the entity is, one per bit. -/
  type : Int32
  position : Vector3
  rotation : Rotation
  velocity : Vector3

namespace Entity

def agentBit : Int32 := 1

def unknown : Entity :=
  ⟨"", Key.null, Key.null, 0, Vector3.zero, Rotation.identity, Vector3.zero⟩

def avatar (name key : String) (position : Vector3) : Entity :=
  ⟨name, key, key, agentBit, position, Rotation.identity, Vector3.zero⟩

instance : Inhabited Entity := ⟨unknown⟩

end Entity

end PrimScript
