import ShaderWeave.AmbientOcclusion.Settings
import ShaderWeave.Variable

/-!
# Parameters

Values that the application changes between draws without compiling again. A cell holds four 32-bit
components, of which a push constant shows the first ones. Nodes and the application share cells and
ambient-occlusion settings by their number in a store, so that a change made through one is seen by
all.
-/

namespace ShaderWeave

/-- Four 32-bit components. -/
structure Cell where
  /-- First component. -/
  c0 : UInt32 := 0
  /-- Second component. -/
  c1 : UInt32 := 0
  /-- Third component. -/
  c2 : UInt32 := 0
  /-- Fourth component. -/
  c3 : UInt32 := 0
deriving DecidableEq, Inhabited

namespace Cell

/-- The components in order. -/
def words (cell : Cell) : List UInt32 := [cell.c0, cell.c1, cell.c2, cell.c3]

/-- The bytes of the components, least significant first. -/
def bytes (cell : Cell) : List UInt8 := cell.words.flatMap Binary32.wordBytes

/-- The first component as a float. -/
def float (cell : Cell) : Binary32 := ⟨cell.c0⟩

/-- The first component as an integer. -/
def int (cell : Cell) : Int32 := cell.c0.toInt32

/-- The first two components as floats. -/
def vec2 (cell : Cell) : Vec2 := ⟨⟨cell.c0⟩, ⟨cell.c1⟩⟩

/-- The first two components as integers. -/
def ivec2 (cell : Cell) : Int32 × Int32 := (cell.c0.toInt32, cell.c1.toInt32)

end Cell

/-- A value for the first components of a cell. -/
inductive CellValue where
  /-- A float. -/
  | float (x : Binary32)
  /-- An integer. -/
  | int (n : Int32)
  /-- Two floats. -/
  | vec2 (v : Vec2)
  /-- Two integers. -/
  | ivec2 (x y : Int32)
  /-- Four floats. -/
  | vec4 (v : Vec4)
deriving DecidableEq

/-- The cell with its first components replaced; the others stay. -/
def Cell.set (cell : Cell) : CellValue → Cell
  | .float x => { cell with c0 := x.bits }
  | .int n => { cell with c0 := n.toUInt32 }
  | .vec2 v => { cell with c0 := v.x.bits, c1 := v.y.bits }
  | .ivec2 x y => { cell with c0 := x.toUInt32, c1 := y.toUInt32 }
  | .vec4 v => ⟨v.x.bits, v.y.bits, v.z.bits, v.w.bits⟩

/-- A push constant: its declaration and the number of the cell that holds its value. -/
structure PushConstant where
  /-- How it is declared. -/
  var : Variable
  /-- Number of its cell in the parameter store. -/
  cell : Nat
deriving DecidableEq, Inhabited

/-- All shared parameters. -/
structure ParameterStore where
  /-- The cells, by number. -/
  cells : List Cell := []
  /-- The settings of ambient occlusion, by number. -/
  occlusion : List AmbientOcclusion.Settings := []
deriving DecidableEq, Inhabited

namespace ParameterStore

/-- The cell with the given number. -/
def cell (store : ParameterStore) (id : Nat) : Cell :=
  store.cells.getD id {}

/-- A new cell: its number and the store with it. -/
def addCell (store : ParameterStore) (cell : Cell) : Nat × ParameterStore :=
  (store.cells.length, { store with cells := store.cells ++ [cell] })

/-- Set the first components of a cell. -/
def setCell (store : ParameterStore) (id : Nat) (value : CellValue) : ParameterStore :=
  { store with cells := store.cells.modify id (·.set value) }

/-- Set cells one after another, each by its number. -/
def setCells (store : ParameterStore) (updates : List (Nat × CellValue)) : ParameterStore :=
  updates.foldl (fun store update => store.setCell update.1 update.2) store

/-- The settings with the given number. -/
def settings (store : ParameterStore) (id : Nat) : AmbientOcclusion.Settings :=
  store.occlusion.getD id .initial

/-- New settings: their number and the store with them. -/
def addSettings (store : ParameterStore) (settings : AmbientOcclusion.Settings) :
    Nat × ParameterStore :=
  (store.occlusion.length, { store with occlusion := store.occlusion ++ [settings] })

/-- Change settings, if the change can be made. -/
def changeSettings? (store : ParameterStore) (id : Nat) (change : AmbientOcclusion.Change) :
    Option ParameterStore := do
  let settings ← (store.settings id).change? change
  return { store with occlusion := store.occlusion.set id settings }

end ParameterStore

end ShaderWeave
