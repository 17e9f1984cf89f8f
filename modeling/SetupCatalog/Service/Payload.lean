import SetupCatalog.Catalog
import SetupCatalog.Json.Basic

/-!
# Inline payloads

A request may carry scripts inline, as an object with a list of objects that have a name and a text.
`sourcesOf` accepts exactly these, and `payload` writes them.
-/

namespace SetupCatalog.Service

/-- What is wrong with a payload. -/
inductive PayloadFault where
  | notObject
  | noScripts
  | scriptNotObject (index : Nat)
  | noName (index : Nat)
  | noText (index : Nat)
  deriving DecidableEq, Repr

/-- An item of the list of scripts, in messages. -/
def itemLabel (index : Nat) : Text :=
  "scripts[".toList ++ Text.ofNat index ++ "]".toList

/-- The wording of a fault. -/
def PayloadFault.message : PayloadFault → Text
  | notObject => "Request body must be a JSON object with a 'scripts' list".toList
  | noScripts => "'scripts' must be a list of \x7bname, text\x7d objects".toList
  | scriptNotObject index => itemLabel index ++ " must be an object".toList
  | noName index => itemLabel index ++ ".name must be a non-empty string".toList
  | noText index => itemLabel index ++ ".text must be a string".toList

/-- The script that an item of the list stands for. -/
def sourceOf (index : Nat) : Json → Except PayloadFault Source
  | .object fields =>
    match Json.field? fields "name".toList with
    | some (.text (c :: name)) =>
      match Json.field? fields "text".toList with
      | some (.text text) => .ok ⟨c :: name, text⟩
      | _ => .error (.noText index)
    | _ => .error (.noName index)
  | _ => .error (.scriptNotObject index)

/-- The scripts that items stand for, the first of them having the given index. -/
def sourcesFrom (index : Nat) : List Json → Except PayloadFault (List Source)
  | [] => .ok []
  | item :: items => do
    let source ← sourceOf index item
    return source :: (← sourcesFrom (index + 1) items)

/-- The scripts of a payload, in their order. -/
def sourcesOf : Json → Except PayloadFault (List Source)
  | .object fields =>
    match Json.field? fields "scripts".toList with
    | some (.array items) => sourcesFrom 0 items
    | _ => .error .noScripts
  | _ => .error .notObject

/-- The payload that carries the given scripts. -/
def payload (sources : List Source) : Json :=
  .object [("scripts".toList, .array (sources.map fun s =>
    .object [("name".toList, .text s.name), ("text".toList, .text s.text)]))]

end SetupCatalog.Service
