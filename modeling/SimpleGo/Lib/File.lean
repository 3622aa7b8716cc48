import Mathlib.Data.List.Basic
import Mathlib.Data.Nat.Notation
import Mathlib.Tactic.Common

/-!
# Open files and writes that may be cut short

An open file is its contents and a position. `fwrite` overwrites from the position on and
extends the file when it runs past the end; only a prefix of the data may reach the medium.
The lemmas say which bytes a write leaves alone and which it sets.
-/

namespace SimpleGo.Lib

/-- A file opened for update. -/
structure OpenFile where
  content : List UInt8
  pos : ℕ

/-- Overwrite from a position on; a gap past the end is filled with zeros. -/
def writeAt (content : List UInt8) (pos : ℕ) (data : List UInt8) : List UInt8 :=
  content.take pos ++ List.replicate (pos - content.length) 0 ++ data ++
    content.drop (pos + data.length)

namespace OpenFile

/-- `fwrite` of which the first `landed` bytes reach the file. -/
def fwrite (f : OpenFile) (data : List UInt8) (landed : ℕ) : OpenFile where
  content := writeAt f.content f.pos (data.take landed)
  pos := f.pos + (data.take landed).length

/-- `fseek(f, 0, SEEK_END)`; a failing seek keeps the position. -/
def seekEnd (f : OpenFile) (ok : Bool) : OpenFile :=
  if ok then { f with pos := f.content.length } else f

/-- `fseek(f, p, SEEK_SET)`. -/
def seekSet (f : OpenFile) (p : ℕ) (ok : Bool) : OpenFile := if ok then { f with pos := p } else f

end OpenFile

/-- Bytes before the position keep their value. -/
theorem writeAt_getElem?_of_lt {content data : List UInt8} {pos i : ℕ} (hi : i < pos)
    (hlen : i < content.length) : (writeAt content pos data)[i]? = content[i]? := by
  have htake : i < (content.take pos).length := by
    rw [List.length_take]
    omega
  simp only [writeAt, List.append_assoc]
  rw [List.getElem?_append_left htake, List.getElem?_take_of_lt hi]

/-- The written bytes are the data. -/
theorem writeAt_getElem?_data {content data : List UInt8} {pos i : ℕ} (hi : i < data.length) :
    (writeAt content pos data)[pos + i]? = data[i]? := by
  have hpre : (content.take pos ++ List.replicate (pos - content.length) 0).length = pos := by
    simp only [List.length_append, List.length_take, List.length_replicate]
    omega
  rw [writeAt, List.append_assoc, List.getElem?_append_right (by omega), hpre,
    Nat.add_sub_cancel_left, List.getElem?_append_left hi]

/-- Bytes after the written ones keep their value. -/
theorem writeAt_getElem?_of_ge {content data : List UInt8} {pos i : ℕ} (hpos : pos ≤ content.length)
    (hi : pos + data.length ≤ i) : (writeAt content pos data)[i]? = content[i]? := by
  have hpre : (content.take pos ++ List.replicate (pos - content.length) 0 ++ data).length =
      pos + data.length := by
    simp only [List.length_append, List.length_take, List.length_replicate]
    omega
  rw [writeAt, List.getElem?_append_right (by omega), hpre, List.getElem?_drop]
  congr 1
  omega

/-- A write at the end appends. -/
theorem writeAt_length (content data : List UInt8) :
    writeAt content content.length data = content ++ data := by
  simp [writeAt]

/-- A write at the start replaces as many bytes as it has. -/
theorem writeAt_zero (content data : List UInt8) :
    writeAt content 0 data = data ++ content.drop data.length := by
  simp [writeAt]

/-- A write of the same length replaces the start of a file. -/
theorem writeAt_zero_append {old data : List UInt8} (rest : List UInt8)
    (hlen : data.length = old.length) : writeAt (old ++ rest) 0 data = data ++ rest := by
  rw [writeAt_zero, hlen, List.drop_left]

/-- What lands of a write at the end is appended. -/
theorem OpenFile.fwrite_length (content data : List UInt8) (landed : ℕ) :
    OpenFile.fwrite ⟨content, content.length⟩ data landed =
      ⟨content ++ data.take landed, (content ++ data.take landed).length⟩ := by
  simp only [OpenFile.fwrite, writeAt_length, List.length_append]

/-- The position moves to the end of the written bytes, inside the file. -/
theorem OpenFile.fwrite_pos_le (f : OpenFile) (data : List UInt8) (landed : ℕ) :
    (f.fwrite data landed).pos ≤ (f.fwrite data landed).content.length := by
  simp only [OpenFile.fwrite, writeAt, List.length_append, List.length_take,
    List.length_replicate, List.length_drop]
  omega

end SimpleGo.Lib
