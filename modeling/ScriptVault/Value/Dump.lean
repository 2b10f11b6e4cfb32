import ScriptVault.Value.Facade
import ScriptVault.Value.Text

/-!
# Dump — a value with all that it refers to, as JSON

Objects, functions and facades are numbered in the order in which they are first met, and one that was met
before is referred to by its number.  An object comes before its properties, these before its prototype, and
a facade before its exports and its namespace.
-/

namespace ScriptVault

/-- Something that is numbered. -/
inductive Place where
  | object (n : Nat)
  | function (n : Nat)
  | facade (n : Nat)
  deriving DecidableEq, Repr

/-- The flags of a property: writable, enumerable and configurable. -/
def Property.flags (p : Property) : String :=
  (if p.writable then "w" else "-") ++ (if p.enumerable then "e" else "-") ++
    (if p.configurable then "c" else "-")

namespace Heap

/-- A number as JSON. -/
def numeral (n : Nat) : Json := .number (.whole n)

/-- The reference to a place that was met before, or what is made of a new one under its number. -/
def entering (seen : List Place) (place : Place) (make : Nat → List Place → Json × List Place) :
    Json × List Place :=
  match seen.idxOf? place with
  | some n => (Json.ofMembers [("ref", numeral n)], seen)
  | none => make seen.length (seen ++ [place])

/-- The text of each of some parts, where each is told which places the ones before it met. -/
def dumpEach {α : Type} (dump : List Place → α → Json × List Place) :
    List Place → List α → List Json × List Place
  | seen, [] => ([], seen)
  | seen, a :: rest =>
    let (d, seen) := dump seen a
    let (ds, seen) := dumpEach dump seen rest
    (d :: ds, seen)

/-- A value as JSON, through at most `depth` places; the places met before are told. -/
def dumpUpTo (h : Heap) : Nat → List Place → Value → Json × List Place
  | _, seen, .undefined => (Json.ofMembers [("undefined", .bool true)], seen)
  | _, seen, .null => (.null, seen)
  | _, seen, .bool b => (.bool b, seen)
  | _, seen, .number x => (Json.ofMembers [("num", .text (Value.numberText x))], seen)
  | _, seen, .text s => (.text s, seen)
  | _, seen, .function f =>
    entering seen (.function f) fun n seen =>
      (Json.ofMembers [("fn", .text (h.function f).name), ("id", numeral n),
        ("ctor", .bool (h.function f).build.isSome)], seen)
  | 0, seen, _ => (.null, seen)
  | depth + 1, seen, .object o =>
    entering seen (.object o) fun n seen =>
      let r := h.record o
      let (props, seen) := dumpEach (fun seen (k, p) =>
        let (d, seen) := dumpUpTo h depth seen p.value
        (.array [.text k.name, d, .text p.flags], seen)) seen
          (r.properties.map fun (k, p) => (k, (r.find? k).getD p))
      let (proto, seen) :=
        r.prototype.elim (.null, seen) fun p => dumpUpTo h depth seen (.object p)
      (Json.ofMembers [("obj", numeral n), ("props", .array props), ("ext", .bool r.extensible),
        ("proto", proto)], seen)
  | depth + 1, seen, .facade f =>
    entering seen (.facade f) fun n seen =>
      let (exports, seen) := dumpUpTo h depth seen (.object (h.facade f).exports)
      let (names, seen) := dumpUpTo h depth seen (.object (h.facade f).namespace)
      (Json.ofMembers [("facade", numeral n), ("exports", exports), ("namespace", names),
        ("keys", .array ((h.facadeKeys f).map fun k => .text k.name))], seen)

/-- How many places there are. -/
def places (h : Heap) : Nat := h.records.size + h.functions.size + h.facades.size

/-- A value as JSON. -/
def dump (h : Heap) (v : Value) : Json := (h.dumpUpTo (h.places + 1) [] v).1

/-- Some values as JSON under one numbering; a failure stands as `failed` tells. -/
def dumpAll (h : Heap) (failed : Failure → Json) (vs : List (Except Failure Value)) : Json :=
  .array (dumpEach (fun seen v =>
    match v with
    | .ok v => h.dumpUpTo (h.places + 1) seen v
    | .error e => (failed e, seen)) [] vs).1

end Heap

end ScriptVault
