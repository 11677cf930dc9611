import LocaleKeys.Failure
import LocaleKeys.Yaml.Node
import LocaleKeys.Yaml.Plain

/-!
# A reader of YAML

This reader knows plain documents: collections in block and flow style, scalars of all styles, and
the types that plain scalars resolve to. It knows no anchors, aliases, merge keys and tags, and
refuses a document that has any. To the rest of the program a reader of YAML is a part of the host;
this is the one that the program is started with where no library is at hand.

`Yaml.read` reads a document that holds one value, or nothing. Keys have to be values that a mapping
can be looked up by, so neither sequences nor mappings. Values are made level by level: of two
faults the one nearer to the top of the document counts, of two at the same level the first.
-/

namespace LocaleKeys

namespace Yaml

/-- A fault with the number of collections around it. -/
structure Deep where
  depth : Nat
  stop : Stop

def Deep.first : Option Deep → Option Deep → Option Deep
  | none, b => b
  | some a, none => some a
  | some a, some b => if b.depth < a.depth then some b else some a

def scalarValue (text : Text) (plain : Bool) : Except Stop Value :=
  if plain then Plain.value text else .ok (.str text)

/-- The value of a scalar as a key; the mark that names a default is a string there. -/
def keyValue (text : Text) (plain : Bool) : Except Stop Value :=
  if text = Text.ofString "=" then .ok (.str text) else scalarValue text plain

/-- What is wrong with a node as a key of a mapping below `depth` collections. -/
def faultInKey (depth : Nat) : Node → Option Deep
  | .scalar text plain =>
      match keyValue text plain with
      | .ok _ => none
      | .error stop => some ⟨depth, stop⟩
  | .sequence _ => some ⟨depth, .fault .unhashableKey⟩
  | .mapping _ => some ⟨depth, .fault .unhashableKey⟩

mutual

def faultIn (depth : Nat) : Node → Option Deep
  | .scalar text plain =>
      match scalarValue text plain with
      | .ok _ => none
      | .error stop => some ⟨depth, stop⟩
  | .sequence items => faultInItems (depth + 1) items
  | .mapping pairs => faultInPairs (depth + 1) pairs
termination_by structural n => n

def faultInItems (depth : Nat) : List Node → Option Deep
  | [] => none
  | n :: ns => Deep.first (faultIn depth n) (faultInItems depth ns)
termination_by structural ns => ns

def faultInPairs (depth : Nat) : List (Node × Node) → Option Deep
  | [] => none
  | p :: ps => Deep.first (faultInPair depth p) (faultInPairs depth ps)
termination_by structural ps => ps

def faultInPair (depth : Nat) : Node × Node → Option Deep
  | (k, v) => Deep.first (faultInKey depth k) (faultIn depth v)
termination_by structural p => p

end

def keyOf : Node → Value
  | .scalar text plain => (keyValue text plain).toOption.getD .null
  | .sequence _ => .null
  | .mapping _ => .null

mutual

def valueOf : Node → Value
  | .scalar text plain => (scalarValue text plain).toOption.getD .null
  | .sequence items => .list (valuesOf items)
  | .mapping pairs => .dict (entriesOf [] pairs)
termination_by structural n => n

def valuesOf : List Node → List Value
  | [] => []
  | n :: ns => valueOf n :: valuesOf ns
termination_by structural ns => ns

def entriesOf (done : List (Value × Value)) : List (Node × Node) → List (Value × Value)
  | [] => done
  | p :: ps => entriesOf (Value.put (entryOf p).1 (entryOf p).2 done) ps
termination_by structural ps => ps

def entryOf : Node × Node → Value × Value
  | (k, v) => (keyOf k, valueOf v)
termination_by structural p => p

end

def read (source : Source) : Except Stop Value := do
  match ← Node.ofAll (Token.scan source) with
  | none => return .null
  | some n =>
      match faultIn 0 n with
      | some d => throw d.stop
      | none => return valueOf n

def Stop.toYamlFault : Stop → YamlFault
  | .fault f => .invalid f.message
  | .value f => .raised "unusable value" f.message
  | .reading f => .raised "bytes that cannot be read" f.message
  | .codePointNumber => .raised "number out of range" RangeFault.codePoint.message

def readBytes (bytes : Bytes) : Except YamlFault Value :=
  (read (.ofBytes bytes)).mapError Stop.toYamlFault

end Yaml

end LocaleKeys
