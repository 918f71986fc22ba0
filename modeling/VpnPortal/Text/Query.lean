/-
Query strings, as Python's `urllib.parse` reads them with `strict_parsing`.

The fields stand between `&`, and each must have a `=`; what follows the first one
is the value. A `+` is a blank, and the escapes of a run of ASCII characters are
undone together, so that other characters pass as they are.

* `unquote`, `unquotePlus`: a name or a value;
* `field`, `parseQsl`: the fields;
* `Points`, `points_parseQsl`: they are texts of code points if the query is one.
-/
import Mathlib.Data.List.SplitBy
import VpnPortal.Tables.Table
import VpnPortal.Text.Blocks
import VpnPortal.Text.Percent

namespace Query

/-- `unquote` -/
def unquote (s : List ℕ) : List ℕ :=
  (s.splitBy fun a b => decide (a < 0x80) == decide (b < 0x80)).flatMap fun part =>
    if part.all (· < 0x80) then Percent.unquote part else part

/-- `unquote(s.replace("+", " "))` -/
def unquotePlus (s : List ℕ) : List ℕ := unquote (s.map fun c => if c = 0x2B then 0x20 else c)

/-- One field; without a `=` it is none. -/
def field (s : List ℕ) : Option (List ℕ × List ℕ) :=
  if 0x3D ∈ s then
    some (unquotePlus (s.takeWhile (· ≠ 0x3D)), unquotePlus ((s.dropWhile (· ≠ 0x3D)).drop 1))
  else none

/-- `parse_qsl(qs, keep_blank_values=True, strict_parsing=True)`, with `none` for
the `ValueError`. -/
def parseQsl (qs : List ℕ) : Option (List (List ℕ × List ℕ)) :=
  if qs = [] then some [] else (qs.splitOn 0x26).mapM field

/-! ### Code points -/

/-- A text of code points. -/
def Points (s : List ℕ) : Prop := ∀ c ∈ s, c < 0x110000

instance (s : List ℕ) : Decidable (Points s) := inferInstanceAs (Decidable (∀ c ∈ s, c < 0x110000))

lemma points_unquote {s : List ℕ} (hs : Points s) : Points (unquote s) := by
  intro c hc
  obtain ⟨part, hpart, hc⟩ := List.mem_flatMap.mp hc
  split_ifs at hc
  · exact Utf8.decodeReplace_lt c hc
  · refine hs c ?_
    rw [← List.flatten_splitBy (fun a b => decide (a < 0x80) == decide (b < 0x80)) s]
    exact List.mem_flatten.mpr ⟨part, hpart, hc⟩

lemma points_unquotePlus {s : List ℕ} (hs : Points s) : Points (unquotePlus s) := by
  refine points_unquote fun c hc => ?_
  obtain ⟨d, hd, rfl⟩ := List.mem_map.mp hc
  have hlt := hs d hd
  split_ifs <;> omega

lemma points_field {s : List ℕ} {f : List ℕ × List ℕ} (hs : Points s) (h : field s = some f) :
    Points f.1 ∧ Points f.2 := by
  obtain ⟨-, h⟩ := Option.ite_none_right_eq_some.mp h
  obtain rfl := Option.some.inj h
  constructor
  · exact points_unquotePlus fun c hc => hs c ((List.takeWhile_sublist _).subset hc)
  · exact points_unquotePlus fun c hc =>
      hs c ((List.dropWhile_sublist _).subset ((List.drop_sublist _ _).subset hc))

/-- **Fields are texts of code points.** -/
lemma points_parseQsl {qs : List ℕ} {fields : List (List ℕ × List ℕ)} (hqs : Points qs)
    (h : parseQsl qs = some fields) : ∀ f ∈ fields, Points f.1 ∧ Points f.2 := by
  unfold parseQsl at h
  split_ifs at h with hempty
  · obtain rfl := Option.some.inj h
    exact fun _ hf => (List.not_mem_nil hf).elim
  · intro f hf
    obtain ⟨s, hs, hfield⟩ := Tables.exists_of_mem_mapM h f hf
    refine points_field (fun c hc => hqs c ?_) hfield
    have hjoin : [0x26].intercalate (qs.splitOn 0x26) = qs := List.intercalate_splitOn 0x26
    rw [← hjoin]
    exact Blocks.mem_intercalate_of_mem hs hc

end Query
