import RecordQuery.Config
import RecordQuery.Json.Reader

/-!
# Configuration as JSON

A configuration read from JSON, with every setting optional, and written as JSON. An object's
members are read in their order, and those that are no settings do not matter; the items of an array
are the settings in the order of their declaration.

1. `Config.ofJson_toJson`: what is written is read back.
-/
namespace RecordQuery

namespace Dialect

/-- The dialect that a text names. -/
def ofJson (json : Json) : Except JsonFault Dialect :=
  match json.readText with
  | .error fault => .error fault
  | .ok name =>
    match Dialect.parse name with
    | .ok dialect => .ok dialect
    | .error e => .error (.refused e)

end Dialect

namespace Config

/-- A setting of a configuration. -/
inductive Setting where
  | maxFilterParams
  | maxSortParams
  | maxValueLength
  | defaultPageSize
  | dialect
  deriving DecidableEq, Repr

namespace Setting

def name : Setting → String
  | .maxFilterParams => "max_filter_params"
  | .maxSortParams => "max_sort_params"
  | .maxValueLength => "max_value_length"
  | .defaultPageSize => "default_page_size"
  | .dialect => "dialect"

def all : List Setting :=
  [.maxFilterParams, .maxSortParams, .maxValueLength, .defaultPageSize, .dialect]

def ofName? (name : String) : Option Setting := all.find? fun s => s.name == name

end Setting

/-- A limit on a number of things. -/
def readLimit (json : Json) : Except JsonFault Nat := (json.readUInt64 "usize").map UInt64.toNat

/-- The configuration with one setting read from a value. -/
def set (c : Config) (setting : Setting) (value : Json) : Except JsonFault Config :=
  match setting with
  | .maxFilterParams =>
    (value.readOptional readLimit).map fun limit => { c with maxFilterParams := limit }
  | .maxSortParams =>
    (value.readOptional readLimit).map fun limit => { c with maxSortParams := limit }
  | .maxValueLength => (readLimit value).map fun limit => { c with maxValueLength := limit }
  | .defaultPageSize => (value.readUInt64 "u64").map fun size => { c with defaultPageSize := size }
  | .dialect => (value.readOptional Dialect.ofJson).map fun dialect => { c with dialect := dialect }

/-- The configuration with a member of an object read into it. -/
def setMember (c : Config) (member : String × Json) : Except JsonFault Config :=
  match Setting.ofName? member.1 with
  | none => .ok c
  | some setting => c.set setting member.2

def ofJson : Json → Except JsonFault Config
  | .object members => members.foldlM setMember {}
  | .array items =>
    ((Setting.all.zip items).foldlM (fun (c : Config) p => c.set p.1 p.2) {}).bind fun c =>
      (Json.noFurther items Setting.all.length).map fun () => c
  | other => .error (.wrongKind other "struct QueryConfig")

/-- A limit that may be missing, as JSON. -/
def limitJson (limit : Option Nat) : Json := (limit.map Json.natural).getD .null

def toJson (c : Config) : Json :=
  .object [
    (Setting.maxFilterParams.name, limitJson c.maxFilterParams),
    (Setting.maxSortParams.name, limitJson c.maxSortParams),
    (Setting.maxValueLength.name, .natural c.maxValueLength),
    (Setting.defaultPageSize.name, .natural c.defaultPageSize.toNat),
    (Setting.dialect.name, (c.dialect.map fun d => Json.text d.name).getD .null)]

theorem readLimit_natural {n : Nat} (h : n < UInt64.size) : readLimit (.natural n) = .ok n := by
  have hn : (UInt64.ofNat n).toNat = n := UInt64.toNat_ofNat_of_lt' h
  have hu : (Json.natural n).readUInt64 "usize" = .ok (UInt64.ofNat n) :=
    Json.readUInt64_eq_ok_iff.2 (congrArg Json.natural hn.symm)
  rw [readLimit, hu]
  exact congrArg Except.ok hn

theorem readOptional_limitJson {limit : Option Nat} (h : ∀ n ∈ limit, n < UInt64.size) :
    (limitJson limit).readOptional readLimit = .ok limit := by
  cases limit with
  | none => rfl
  | some n => simp [limitJson, Json.readOptional, readLimit_natural (h n rfl), Except.map]

/-- What is written is read back, as long as the limits are within 64 bits and the dialect has a
name to be read by. -/
theorem ofJson_toJson {c : Config} (hf : ∀ n ∈ c.maxFilterParams, n < UInt64.size)
    (hs : ∀ n ∈ c.maxSortParams, n < UInt64.size) (hv : c.maxValueLength < UInt64.size)
    (hd : c.dialect ≠ some .other) : ofJson c.toJson = .ok c := by
  obtain ⟨f, s, v, p, d⟩ := c
  have hdialect : Json.readOptional Dialect.ofJson ((d.map fun d => Json.text d.name).getD .null)
      = .ok d := by
    cases d with
    | none => rfl
    | some d =>
      have := Dialect.parse_name d fun e => hd (congrArg some e)
      simp [Json.readOptional, Dialect.ofJson, Json.readText, this, Except.map]
  have hp : Json.readUInt64 "u64" (.natural p.toNat) = .ok p :=
    Json.readUInt64_eq_ok_iff.2 rfl
  simp only [ofJson, toJson, List.foldlM_cons, List.foldlM_nil, setMember,
    show Setting.ofName? Setting.maxFilterParams.name = some .maxFilterParams from rfl,
    show Setting.ofName? Setting.maxSortParams.name = some .maxSortParams from rfl,
    show Setting.ofName? Setting.maxValueLength.name = some .maxValueLength from rfl,
    show Setting.ofName? Setting.defaultPageSize.name = some .defaultPageSize from rfl,
    show Setting.ofName? Setting.dialect.name = some .dialect from rfl, set,
    readOptional_limitJson hf, readOptional_limitJson hs, readLimit_natural hv, hp, hdialect,
    Except.map, bind, Except.bind, pure, Except.pure]

end Config

end RecordQuery
