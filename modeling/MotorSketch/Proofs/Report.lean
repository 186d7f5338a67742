import MotorSketch.Proofs.Json.Tree
import MotorSketch.Report

/-!
# Reading reports

The JSON of a report can be read back: the board, the parts of the sketch, the pins with their
roles and the warnings of every block, each map in its own order.  So reports that differ are
written differently, and so are warnings on their own.

    readMap? key? read? (.object (m.entries.map fun e => (name e.1, write e.2))) = some m, if `key?`
      reads what `name` writes and `read?` what `write` writes                    (readMap?_entries)
    Report.ofJson? r.toJson = some r, Warnings.ofJson? w.toJson = some w          (ofJson?_toJson)
    Report.read? r.json = some r, Warnings.read? w.toJson.compact = some w         (json_faithful)
-/

namespace MotorSketch

namespace Json.Value

/-! ## Algorithm -/

def text? : Value → Option String
  | text s => some s
  | _ => none

/-- The first member with this name. -/
def member? (name : String) : Value → Option Value
  | object members => Entries.find? name members
  | _ => none

variable {κ α : Type}

def readEntries? (key? : String → Option κ) (read? : Value → Option α) :
    List (String × Value) → Option (List (κ × α))
  | [] => some []
  | (name, value) :: rest => do
    let k ← key? name
    let a ← read? value
    let es ← readEntries? key? read? rest
    return (k, a) :: es

/-- An object as a map; no key may come again. -/
def readMap? [DecidableEq κ] (key? : String → Option κ) (read? : Value → Option α) :
    Value → Option (OrderedMap κ α)
  | object members => do
    let es ← readEntries? key? read? members
    if h : (Entries.keys es).Nodup then some ⟨es, h⟩ else none
  | _ => none

/-! ## Lemmas -/

variable {key? : String → Option κ} {read? : Value → Option α} (name : κ → String)
  (write : α → Value)

theorem readEntries?_map (hkey : ∀ k, key? (name k) = some k)
    (hread : ∀ a, read? (write a) = some a) (es : List (κ × α)) :
    readEntries? key? read? (es.map fun e => (name e.1, write e.2)) = some es := by
  induction es with
  | nil => rfl
  | cons e es ih =>
    rw [List.map_cons, readEntries?, hkey, hread, ih]
    rfl

theorem readMap?_entries [DecidableEq κ] (hkey : ∀ k, key? (name k) = some k)
    (hread : ∀ a, read? (write a) = some a) (m : OrderedMap κ α) :
    readMap? key? read? (object (m.entries.map fun e => (name e.1, write e.2))) = some m := by
  rw [readMap?, readEntries?_map name write hkey hread]
  exact dif_pos m.nodup_keys

theorem readMap?_textMap (m : OrderedMap String String) :
    readMap? some text? (textMap m.entries) = some m :=
  readMap?_entries id text (fun _ => rfl) (fun _ => rfl) m

end Json.Value

open Json (Value)

/-! ## Parts, pins and warnings -/

def Sketch.Parts.ofJson? (v : Value) : Option Sketch.Parts := do
  let definitions ← (← v.member? "definitions").readMap? some Value.text?
  let setups ← (← v.member? "setups").readMap? some Value.text?
  let body ← (← v.member? "body").readMap? some Value.text?
  return ⟨definitions, setups, body⟩

def PinAssignment.ofJson? (v : Value) : Option PinAssignment :=
  (v.readMap? some fun role => role.text?.bind PinRole.ofTag?).map PinAssignment.mk

/-- Every block that is listed has a warning. -/
def Warnings.ofJson? (v : Value) : Option Warnings := do
  let byBlock ← v.readMap? some (Value.readMap? WarningKind.ofTag? Value.text?)
  if h : ∀ e ∈ byBlock.entries, e.2 ≠ ∅ then some ⟨byBlock, h⟩ else none

def Report.ofJson? (v : Value) : Option Report := do
  let board ← (← v.member? "board").text?
  let parts ← Sketch.Parts.ofJson? (← v.member? "fragments")
  let pins ← PinAssignment.ofJson? (← v.member? "pins")
  let warnings ← Warnings.ofJson? (← v.member? "warnings")
  return ⟨board, parts, pins, warnings⟩

theorem WarningKind.ofTag?_tag (k : WarningKind) : ofTag? k.tag = some k := by
  cases k <;> decide

theorem Sketch.Parts.ofJson?_toJson (p : Sketch.Parts) : ofJson? p.toJson = some p := by
  have hread : ofJson? p.toJson = (do
      let definitions ← (Value.textMap p.definitions.entries).readMap? some Value.text?
      let setups ← (Value.textMap p.setups.entries).readMap? some Value.text?
      let body ← (Value.textMap p.body.entries).readMap? some Value.text?
      return ⟨definitions, setups, body⟩) := rfl
  rw [hread, Value.readMap?_textMap, Value.readMap?_textMap, Value.readMap?_textMap]
  rfl

theorem PinAssignment.ofJson?_toJson (m : PinAssignment) : ofJson? m.toJson = some m := by
  have hroles : m.toJson.readMap? some (fun role => role.text?.bind PinRole.ofTag?) =
      some m.roles := by
    rw [toJson, Value.textMap, List.map_map]
    exact Value.readMap?_entries id (fun role : PinRole => .text role.tag) (fun _ => rfl)
      PinRole.ofTag?_tag m.roles
  rw [ofJson?, hroles]
  rfl

namespace Warnings

theorem readMap?_blockToJson (ws : BlockWarnings) :
    (blockToJson ws).readMap? WarningKind.ofTag? Value.text? = some ws := by
  rw [blockToJson, Value.textMap, List.map_map]
  exact Value.readMap?_entries WarningKind.tag Value.text WarningKind.ofTag?_tag (fun _ => rfl) ws

theorem ofJson?_toJson (w : Warnings) : ofJson? w.toJson = some w := by
  have hblocks : w.toJson.readMap? some (Value.readMap? WarningKind.ofTag? Value.text?) =
      some w.byBlock :=
    Value.readMap?_entries id blockToJson (fun _ => rfl) readMap?_blockToJson w.byBlock
  rw [ofJson?, hblocks]
  exact dif_pos w.nonempty

end Warnings

theorem Report.ofJson?_toJson (r : Report) : ofJson? r.toJson = some r := by
  have hread : ofJson? r.toJson = (do
      let parts ← Sketch.Parts.ofJson? r.parts.toJson
      let pins ← PinAssignment.ofJson? r.pins.toJson
      let warnings ← Warnings.ofJson? r.warnings.toJson
      return ⟨r.board, parts, pins, warnings⟩) := rfl
  rw [hread, Sketch.Parts.ofJson?_toJson, PinAssignment.ofJson?_toJson, Warnings.ofJson?_toJson]
  rfl

/-! ## Texts -/

theorem Warnings.numberFree_toJson (w : Warnings) : w.toJson.NumberFree := by
  show Value.MembersNumberFree _
  rw [Value.membersNumberFree_iff]
  intro m hm
  obtain ⟨e, -, rfl⟩ := List.mem_map.1 hm
  exact Value.numberFree_textMap _

theorem Report.numberFree_toJson (r : Report) : r.toJson.NumberFree := by
  have hparts : r.parts.toJson.NumberFree :=
    ⟨Value.numberFree_textMap _, Value.numberFree_textMap _, Value.numberFree_textMap _, trivial⟩
  exact ⟨trivial, hparts, Value.numberFree_textMap _, r.warnings.numberFree_toJson, trivial⟩

def Warnings.read? (s : String) : Option Warnings := (Value.parse? s).bind ofJson?

def Report.read? (s : String) : Option Report := (Value.parse? s).bind ofJson?

/-- The JSON text of a report has the board, the parts, the pins and the warnings as its members,
every map with its entries in order, and nothing of the report is lost in it; nor is anything of
warnings that are written on their own. -/
theorem Report.json_faithful :
    (∀ r : Report,
      Value.parse? r.json = some (.object [
        ("board", .text r.board),
        ("fragments", .object [
          ("definitions", .textMap r.parts.definitions.entries),
          ("setups", .textMap r.parts.setups.entries),
          ("body", .textMap r.parts.body.entries)]),
        ("pins", .textMap (r.pins.roles.entries.map fun e => (e.1, e.2.tag))),
        ("warnings", .object (r.warnings.byBlock.entries.map fun e =>
          (e.1, .textMap (e.2.entries.map fun s => (s.1.tag, s.2)))))]) ∧
      Report.read? r.json = some r) ∧
    Function.Injective Report.json ∧
    (∀ w : Warnings,
      Value.parse? w.toJson.compact = some (.object (w.byBlock.entries.map fun e =>
        (e.1, .textMap (e.2.entries.map fun s => (s.1.tag, s.2))))) ∧
      Warnings.read? w.toJson.compact = some w) ∧
    Function.Injective fun w : Warnings => w.toJson.compact := by
  have hreport : ∀ r : Report, Value.parse? r.json = some r.toJson := fun r =>
    Value.parse?_pretty r.numberFree_toJson
  have hwarnings : ∀ w : Warnings, Value.parse? w.toJson.compact = some w.toJson := fun w =>
    Value.parse?_compact w.numberFree_toJson
  have hreadReport : ∀ r : Report, Report.read? r.json = some r := by
    intro r
    rw [read?, hreport, Option.bind_some, ofJson?_toJson]
  have hreadWarnings : ∀ w : Warnings, Warnings.read? w.toJson.compact = some w := by
    intro w
    rw [Warnings.read?, hwarnings, Option.bind_some, Warnings.ofJson?_toJson]
  refine ⟨fun r => ⟨hreport r, hreadReport r⟩, ?_, fun w => ⟨hwarnings w, hreadWarnings w⟩, ?_⟩
  · intro r s h
    have hread := hreadReport r
    rw [h, hreadReport s] at hread
    exact (Option.some.inj hread).symm
  · intro v w h
    have hread := hreadWarnings v
    rw [show v.toJson.compact = w.toJson.compact from h, hreadWarnings w] at hread
    exact (Option.some.inj hread).symm

end MotorSketch
