import LocaleKeys.Yaml.Token

/-!
# Nodes of a YAML document

The tokens of a document form a tree of scalars, sequences and mappings. A value or key that is left
out is an empty plain scalar. A document may be introduced by directives and a marker; after it
nothing may follow but markers that end it.
-/

namespace LocaleKeys

namespace Yaml

inductive Node where
  | scalar (text : Text) (plain : Bool)
  | sequence (items : List Node)
  | mapping (pairs : List (Node × Node))
deriving Repr

namespace Node

def missing : Node := scalar [] true

/-- Refuses tokens that begin with none of those that are expected; a stop has its own reason. -/
def expected {α : Type} (what : Text) : List Token → Except Stop α
  | .stop why :: _ => .error why
  | _ => .error (.fault (.grammar what))

mutual

/-- Reads a node. In a block it may be a block of its own, and directly below a key a sequence whose
entries are not indented. -/
def ofTokens (inBlock belowKey : Bool) : (fuel : Nat) → List Token → Except Stop (Node × List Token)
  | 0, ts => expected "the node content" ts
  | fuel + 1, ts =>
      match ts with
      | .blockEntry :: _ =>
          if belowKey then (sequenceEntries false fuel ts).map fun (ns, ts) => (sequence ns, ts)
          else expected "the node content" ts
      | .scalar text plain :: ts => .ok (scalar text plain, ts)
      | .flowSequenceStart :: ts => (flowItems true fuel ts).map fun (ns, ts) => (sequence ns, ts)
      | .flowMappingStart :: ts => (flowPairs true fuel ts).map fun (ps, ts) => (mapping ps, ts)
      | .blockSequenceStart :: rest =>
          if inBlock then (sequenceEntries true fuel rest).map fun (ns, ts) => (sequence ns, ts)
          else expected "the node content" ts
      | .blockMappingStart :: rest =>
          if inBlock then (mappingPairs fuel rest).map fun (ps, ts) => (mapping ps, ts)
          else expected "the node content" ts
      | _ => expected "the node content" ts

def sequenceEntries (indented : Bool) :
    (fuel : Nat) → List Token → Except Stop (List Node × List Token)
  | 0, ts => expected "<block end>" ts
  | fuel + 1, ts =>
      match ts with
      | .blockEntry :: ts => do
          let (n, ts) ←
            match ts with
            | .blockEntry :: _ => .ok (missing, ts)
            | .blockEnd :: _ => .ok (missing, ts)
            | .key :: _ => if indented then ofTokens true false fuel ts else .ok (missing, ts)
            | .value :: _ => if indented then ofTokens true false fuel ts else .ok (missing, ts)
            | _ => ofTokens true false fuel ts
          let (ns, ts) ← sequenceEntries indented fuel ts
          return (n :: ns, ts)
      | .blockEnd :: rest => if indented then .ok ([], rest) else .ok ([], ts)
      | _ => if indented then expected "<block end>" ts else .ok ([], ts)

def mappingPart : (fuel : Nat) → List Token → Except Stop (Node × List Token)
  | 0, ts => expected "<block end>" ts
  | fuel + 1, ts =>
      match ts with
      | .key :: _ => .ok (missing, ts)
      | .value :: _ => .ok (missing, ts)
      | .blockEnd :: _ => .ok (missing, ts)
      | _ => ofTokens true true fuel ts

def mappingPairs : (fuel : Nat) → List Token → Except Stop (List (Node × Node) × List Token)
  | 0, ts => expected "<block end>" ts
  | fuel + 1, ts =>
      match ts with
      | .key :: ts => do
          let (k, ts) ← mappingPart fuel ts
          let (v, ts) ← match ts with
            | .value :: ts => mappingPart fuel ts
            | ts => .ok (missing, ts)
          let (ps, ts) ← mappingPairs fuel ts
          return ((k, v) :: ps, ts)
      | .blockEnd :: ts => .ok ([], ts)
      | _ => expected "<block end>" ts

def flowPart (end_ : Token) : (fuel : Nat) → List Token → Except Stop (Node × List Token)
  | 0, ts => expected "the node content" ts
  | fuel + 1, ts =>
      match ts with
      | t :: _ =>
          if t = .flowEntry || t = end_ then .ok (missing, ts)
          else ofTokens false false fuel ts
      | [] => ofTokens false false fuel ts

def flowValue (end_ : Token) : (fuel : Nat) → List Token → Except Stop (Node × List Token)
  | 0, ts => expected "the node content" ts
  | fuel + 1, ts =>
      match ts with
      | .value :: ts => flowPart end_ fuel ts
      | ts => .ok (missing, ts)

def flowItems (first : Bool) : (fuel : Nat) → List Token → Except Stop (List Node × List Token)
  | 0, ts => expected "',' or ']'" ts
  | fuel + 1, ts =>
      match first, ts with
      | _, .flowSequenceEnd :: ts => .ok ([], ts)
      | false, .flowEntry :: ts => flowItem fuel ts
      | false, _ => expected "',' or ']'" ts
      | true, ts => flowItem fuel ts

def flowItem : (fuel : Nat) → List Token → Except Stop (List Node × List Token)
  | 0, ts => expected "',' or ']'" ts
  | fuel + 1, ts =>
      match ts with
      | .flowSequenceEnd :: ts => .ok ([], ts)
      | .key :: ts => do
          let (k, ts) ← match ts with
            | .value :: _ => .ok (missing, ts)
            | _ => flowPart .flowSequenceEnd fuel ts
          let (v, ts) ← flowValue .flowSequenceEnd fuel ts
          let (ns, ts) ← flowItems false fuel ts
          return (mapping [(k, v)] :: ns, ts)
      | ts => do
          let (n, ts) ← ofTokens false false fuel ts
          let (ns, ts) ← flowItems false fuel ts
          return (n :: ns, ts)

def flowPairs (first : Bool) :
    (fuel : Nat) → List Token → Except Stop (List (Node × Node) × List Token)
  | 0, ts => expected "',' or '\x7d'" ts
  | fuel + 1, ts =>
      match first, ts with
      | _, .flowMappingEnd :: ts => .ok ([], ts)
      | false, .flowEntry :: ts => flowPair fuel ts
      | false, _ => expected "',' or '\x7d'" ts
      | true, ts => flowPair fuel ts

def flowPair : (fuel : Nat) → List Token → Except Stop (List (Node × Node) × List Token)
  | 0, ts => expected "',' or '\x7d'" ts
  | fuel + 1, ts =>
      match ts with
      | .flowMappingEnd :: ts => .ok ([], ts)
      | .key :: ts => do
          let (k, ts) ← match ts with
            | .value :: _ => .ok (missing, ts)
            | _ => flowPart .flowMappingEnd fuel ts
          let (v, ts) ← flowValue .flowMappingEnd fuel ts
          let (ps, ts) ← flowPairs false fuel ts
          return ((k, v) :: ps, ts)
      | ts => do
          let (k, ts) ← ofTokens false false fuel ts
          let (ps, ts) ← flowPairs false fuel ts
          return ((k, missing) :: ps, ts)

end

def directives (seen : Bool) : List Token → Except Stop (List Token)
  | .versionDirective major :: ts =>
      if seen then expected "no further version directive" []
      else if major ≠ 1 then expected "a document of version 1" []
      else directives true ts
  | .directive :: ts => directives seen ts
  | ts => .ok ts

def skipEnds : List Token → List Token
  | .documentEnd :: ts => skipEnds ts
  | ts => ts

def content (fuel : Nat) (ts : List Token) : Except Stop (Node × List Token) :=
  match ts with
  | [] => .ok (missing, ts)
  | .documentStart :: _ => .ok (missing, ts)
  | .documentEnd :: _ => .ok (missing, ts)
  | .directive :: _ => .ok (missing, ts)
  | .versionDirective _ :: _ => .ok (missing, ts)
  | _ => ofTokens true false fuel ts

def isBare : List Token → Bool
  | .documentStart :: _ => false
  | .directive :: _ => false
  | .versionDirective _ :: _ => false
  | _ => true

def ofAll (ts : List Token) : Except Stop (Option Node) := do
  let fuel := 4 * ts.length + 4
  if ts.isEmpty then return none
  let (n, ts) ←
    if isBare ts then ofTokens true false fuel ts
    else
      match ← directives false ts with
      | .documentStart :: ts => content fuel ts
      | ts => expected "<document start>" ts
  let ts := skipEnds ts
  if ts.isEmpty then return some n
  match ← directives false ts with
  | .documentStart :: _ => throw (.fault .severalDocuments)
  | ts => expected "<document start>" ts

end Node

end Yaml

end LocaleKeys
