import H2a.Library.JsonRoundTrip
import H2a.Library.Utf8
/-!
# Files of JSON lines

A file that is absent, or holds one JSON text on each line.  What is appended is
read back after what was there (`readJsonl_append`).
-/

namespace H2a.Library

variable {N : Type} [JsonNumber N]

/-- The bytes of a file, if it exists. -/
abbrev FileBytes := Option (List UInt8)

/-- The values on the lines that are not empty; `none` where `JSON.parse` throws. -/
def readJsonl (file : FileBytes) : Option (List (Json N)) :=
  match file with
  | none => some []
  | some raw => (((Utf8.decode raw).splitOn '\n').filter fun line => !line.isEmpty).mapM Json.parse

/-- The line of a value. -/
def jsonLine (v : Json N) : List Char := v.render ++ ['\n']

def appendJsonl (file : FileBytes) (v : Json N) : FileBytes :=
  some (file.getD [] ++ Utf8.encode (jsonLine v))

/-- The file holds the lines of `values` and nothing else. -/
def HoldsLines (file : FileBytes) (values : List (Json N)) : Prop :=
  (∀ v ∈ values, v.Printable) ∧
    (file = none ∧ values = [] ∨ file = some (Utf8.encode (values.flatMap jsonLine)))

theorem holdsLines_none : HoldsLines none ([] : List (Json N)) :=
  ⟨by simp, Or.inl ⟨rfl, rfl⟩⟩

theorem HoldsLines.append {file : FileBytes} {values : List (Json N)} (h : HoldsLines file values)
    {v : Json N} (hv : v.Printable) : HoldsLines (appendJsonl file v) (values ++ [v]) := by
  have hbytes : file.getD [] = Utf8.encode (values.flatMap jsonLine) := by
    rcases h.2 with ⟨rfl, rfl⟩ | rfl <;> rfl
  constructor
  · intro u hu
    rcases List.mem_append.mp hu with hu | hu
    · exact h.1 u hu
    · exact List.mem_singleton.mp hu ▸ hv
  · right
    rw [appendJsonl, hbytes, ← Utf8.encode_append, List.flatMap_append, List.flatMap_singleton]

theorem render_ne_nil {v : Json N} (hv : v.Printable) : v.render ≠ [] := by
  intro hnil
  obtain ⟨c, rest, hrender, -⟩ := Json.head_render hv
  rw [hnil] at hrender
  exact absurd hrender (by simp)

/-- The lines are read back. -/
theorem HoldsLines.read {file : FileBytes} {values : List (Json N)} (h : HoldsLines file values) :
    readJsonl file = some (values.map Json.ordered) := by
  rcases h.2 with ⟨rfl, rfl⟩ | rfl
  · rfl
  · rw [readJsonl, Utf8.decode_encode]
    have hprintable := h.1
    clear h
    induction values with
    | nil => simp [List.splitOn_nil]
    | cons v values ih =>
        have hv := hprintable v List.mem_cons_self
        have hne : (fun line : List Char => !line.isEmpty) v.render = true := by
          simpa using render_ne_nil hv
        rw [List.flatMap_cons, jsonLine, List.append_assoc, List.singleton_append,
          List.splitOn_append_cons_self_of_not_mem (Json.newline_not_mem_render v hv),
          List.filter_cons_of_pos (p := fun line : List Char => !line.isEmpty) hne, List.mapM_cons, Json.parse_stringify hv,
          ih fun u hu => hprintable u (List.mem_cons_of_mem v hu)]
        rfl

/-- What is appended is read back after what was there. -/
theorem readJsonl_append {file : FileBytes} {values : List (Json N)} (h : HoldsLines file values)
    {v : Json N} (hv : v.Printable) :
    readJsonl (appendJsonl file v) = some (values.map Json.ordered ++ [v.ordered]) := by
  rw [(h.append hv).read, List.map_append, List.map_singleton]

end H2a.Library
