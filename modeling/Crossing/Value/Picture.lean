import Crossing.Closure.Basic
import Crossing.Number.Shortest
import Crossing.Text.Printable
import Crossing.Value.Basic

/-!
# Pictures of values

The closures and windows in a value change with the instance they belong to. A picture is a value as
it looks at one moment, with the record of each closure and the state of each window's buffer.
`Picture.text` writes it down.
-/

namespace Crossing

/-- A value as it looks at one moment. -/
inductive Picture where
  | undefined
  | null
  | boolean (b : Bool)
  | number (x : Double)
  | string (text : String)
  | array (items : List Picture)
  | object (entries : List (String × Picture))
  | symbol (s : Symbol)
  | reference (object : HostObject)
  | closure (id : Nat) (record : Closure)
  | window (w : Window) (detached : Bool)

/-! ## Taking a picture -/

section
variable (closure : Nat → Closure) (detached : Nat → Bool)

mutual

/-- The picture of a value, given the records of closures and the state of buffers. -/
def Value.picture : Value → Picture
  | .undefined => .undefined
  | .null => .null
  | .boolean b => .boolean b
  | .number x => .number x
  | .string text => .string text
  | .array items => .array (Value.pictures items)
  | .object entries => .object (Value.entryPictures entries)
  | .symbol s => .symbol s
  | .reference o => .reference o
  | .closure id => .closure id (closure id)
  | .window w => .window w (detached w.buffer)

/-- The pictures of items. -/
def Value.pictures : List Value → List Picture
  | [] => []
  | v :: rest => v.picture :: Value.pictures rest

/-- The pictures of properties. -/
def Value.entryPictures : List (String × Value) → List (String × Picture)
  | [] => []
  | (key, v) :: rest => (key, v.picture) :: Value.entryPictures rest

end

end

/-! ## As text -/

/-- A host object as text: its name, or how many bytes it copied. -/
def HostObject.text : HostObject → String
  | named name => name
  | bytes _ content => s!"{content.size} bytes"

namespace Picture

mutual

/-- A picture as text. -/
def text : Picture → String
  | undefined => "undefined"
  | null => "null"
  | boolean b => if b then "true" else "false"
  | number x => x.text
  | string s => Quoted.text s
  | array items => "[" ++ ", ".intercalate (itemTexts items) ++ "]"
  | object entries => "\x7b" ++ ", ".intercalate (entryTexts entries) ++ "\x7d"
  | symbol s => "Symbol(" ++ s.description.getD "" ++ ")"
  | reference o => "Reference(" ++ o.text ++ ")"
  | closure _ c => c.text
  | window w _ => w.text

/-- The texts of items. -/
def itemTexts : List Picture → List String
  | [] => []
  | p :: rest => p.text :: itemTexts rest

/-- The texts of properties. -/
def entryTexts : List (String × Picture) → List String
  | [] => []
  | (key, p) :: rest => (Quoted.text key ++ ": " ++ p.text) :: entryTexts rest

end

end Picture

end Crossing
