import Mathlib.Data.List.Basic

/-! An object in memory as the list of its cells. Reading and writing are null where
they leave the object. -/
namespace LibEst.Lib.Cells

variable {α : Type}

def read (cells : List α) (pos n : Nat) : Option (List α) :=
  if pos + n ≤ cells.length then some ((cells.drop pos).take n) else none

def write (cells : List α) (pos : Nat) (data : List α) : Option (List α) :=
  if pos + data.length ≤ cells.length then
    some (cells.take pos ++ data ++ cells.drop (pos + data.length))
  else none

/-- Cells from one place to another; the two may overlap. -/
def move (cells : List α) (dest src n : Nat) : Option (List α) :=
  (read cells src n).bind (write cells dest)

/-- The cells from `lo` up to `hi` get one value. -/
def fill (cells : List α) (lo hi : Nat) (a : α) : Option (List α) :=
  write cells lo (List.replicate (hi - lo) a)

theorem read_append {front data back : List α} {pos n : Nat} (hpos : front.length = pos)
    (hn : data.length = n) : read (front ++ (data ++ back)) pos n = some data := by
  subst hpos hn
  rw [read, if_pos (by simp only [List.length_append]; omega), List.drop_left, List.take_left]

theorem write_append {front old data back : List α} {pos : Nat} (hpos : front.length = pos)
    (hlength : old.length = data.length) :
    write (front ++ (old ++ back)) pos data = some (front ++ (data ++ back)) := by
  subst hpos
  rw [write, if_pos (by simp only [List.length_append]; omega), List.take_left,
    ← List.drop_drop, List.drop_left, ← hlength, List.drop_left, List.append_assoc]

/-- Data goes behind the cells that have been written so far. -/
theorem write_front {front data rest : List α} {pos : Nat} (hpos : front.length = pos)
    (hroom : data.length ≤ rest.length) :
    write (front ++ rest) pos data = some (front ++ data ++ rest.drop data.length) := by
  subst hpos
  rw [write, if_pos (by rw [List.length_append]; omega), List.take_left, ← List.drop_drop,
    List.drop_left]

theorem fill_append {front old back : List α} {lo hi : Nat} (hlo : front.length = lo)
    (hhi : front.length + old.length = hi) (a : α) :
    fill (front ++ (old ++ back)) lo hi a =
      some (front ++ (List.replicate old.length a ++ back)) := by
  have hlength : hi - lo = old.length := by omega
  rw [fill, hlength]
  exact write_append hlo (List.length_replicate).symm

/-- A block moves to the left over the cells between: they and the block together keep
their length, and nothing before or behind them changes. -/
theorem move_left {front gap data back : List α} {dest src n : Nat}
    (hdest : front.length = dest) (hsrc : front.length + gap.length = src)
    (hn : data.length = n) :
    move (front ++ (gap ++ (data ++ back))) dest src n =
      some (front ++ (data ++ ((gap ++ data).drop data.length ++ back))) := by
  have hread : read (front ++ (gap ++ (data ++ back))) src n = some data := by
    rw [← List.append_assoc]
    apply read_append
    · rw [List.length_append, hsrc]
    · exact hn
  have hsplit : gap ++ (data ++ back) =
      (gap ++ data).take data.length ++ ((gap ++ data).drop data.length ++ back) := by
    rw [← List.append_assoc, ← List.append_assoc, List.take_append_drop]
  rw [move, hread, Option.bind_some, hsplit]
  apply write_append hdest
  rw [List.length_take, List.length_append]
  omega

theorem write_length {cells cells' data : List α} {pos : Nat}
    (h : write cells pos data = some cells') : cells'.length = cells.length := by
  unfold write at h
  split at h
  · cases h
    simp only [List.length_append, List.length_take, List.length_drop]
    omega
  · cases h

theorem write_eq {cells cells' data : List α} {pos : Nat} (h : write cells pos data = some cells') :
    pos + data.length ≤ cells.length ∧
      cells' = cells.take pos ++ data ++ cells.drop (pos + data.length) := by
  unfold write at h
  split at h
  · rename_i hroom
    cases h
    exact ⟨hroom, rfl⟩
  · cases h

/-- A cell that the data does not reach is as it was. -/
theorem write_frame {cells cells' data : List α} {pos i : Nat}
    (h : write cells pos data = some cells') (hi : i < pos ∨ pos + data.length ≤ i) :
    cells'[i]? = cells[i]? := by
  obtain ⟨hroom, rfl⟩ := write_eq h
  have hpos : (cells.take pos).length = pos := by
    rw [List.length_take]
    omega
  rw [List.append_assoc]
  cases hi with
  | inl hbefore =>
    rw [List.getElem?_append_left (by omega), List.getElem?_take_of_lt hbefore]
  | inr hbehind =>
    rw [List.getElem?_append_right (by omega), List.getElem?_append_right (by omega),
      List.getElem?_drop, hpos]
    congr 1
    omega

theorem read_eq {cells data : List α} {pos n : Nat} (h : read cells pos n = some data) :
    pos + n ≤ cells.length ∧ data = (cells.drop pos).take n := by
  unfold read at h
  split at h
  · rename_i hroom
    cases h
    exact ⟨hroom, rfl⟩
  · cases h

theorem move_length {cells cells' : List α} {dest src n : Nat}
    (h : move cells dest src n = some cells') : cells'.length = cells.length := by
  obtain ⟨data, -, hwrite⟩ := Option.bind_eq_some_iff.mp h
  exact write_length hwrite

end LibEst.Lib.Cells
