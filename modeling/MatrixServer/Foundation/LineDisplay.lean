import Mathlib.Data.List.Infix
import Mathlib.Logic.Function.Basic

/-!
A display that takes its frames line by line.
A packet loads the line buffer, stores the line buffer as a row of the frame behind, or swaps
the frames. A frame of at most 256 rows, one line and one store each and then a swap, comes to
the front as a whole; before its swap nothing of it is seen.
-/

namespace LineDisplay

structure Display where
  line : List UInt8
  back : Nat → List UInt8
  front : Nat → List UInt8

namespace Display

def accept (d : Display) : List UInt8 → Display
  | [] => d
  | command :: rest =>
      if command = 0x80 then { d with line := rest }
      else if command = 0x03 then
        match rest with
        | row :: _ => { d with back := Function.update d.back row.toNat d.line }
        | [] => d
      else if command = 0x04 then { d with back := d.front, front := d.back }
      else d

def acceptAll (d : Display) (packets : List (List UInt8)) : Display := packets.foldl accept d

end Display

/-- The packets of one row. -/
def rowPackets (rows : Nat → List UInt8) (row : Nat) : List (List UInt8) :=
  [0x80 :: rows row, [0x03, UInt8.ofNat row]]

def linePackets (rows : Nat → List UInt8) (count : Nat) : List (List UInt8) :=
  (List.range count).flatMap (rowPackets rows)

def framePackets (rows : Nat → List UInt8) (count : Nat) : List (List UInt8) :=
  linePackets rows count ++ [[0x04, 0x00]]

theorem acceptAll_linePackets (d : Display) (rows : Nat → List UInt8) {count : Nat}
    (hcount : count ≤ 256) :
    (d.acceptAll (linePackets rows count)).front = d.front ∧
      ∀ row, (d.acceptAll (linePackets rows count)).back row =
        if row < count then rows row else d.back row := by
  induction count with
  | zero => exact ⟨rfl, fun row => rfl⟩
  | succ count ih =>
      obtain ⟨hfront, hback⟩ := ih (by omega)
      have hsplit : linePackets rows (count + 1) =
          linePackets rows count ++ rowPackets rows count := by
        simp [linePackets, List.range_succ]
      have hnumber : (UInt8.ofNat count).toNat = count := by
        simp only [UInt8.toNat_ofNat']
        omega
      rw [hsplit, Display.acceptAll, List.foldl_append]
      rw [Display.acceptAll] at hfront hback
      refine ⟨hfront, fun row => ?_⟩
      simp only [rowPackets, List.foldl_cons, List.foldl_nil, Display.accept, if_true, hnumber]
      by_cases hrow : row = count
      · subst hrow
        simp
      · have hlt : row < count + 1 ↔ row < count := by omega
        simp [hrow, hlt, hback]

/-- After its packets the frame is in front. -/
theorem front_framePackets (d : Display) (rows : Nat → List UInt8) {count : Nat}
    (hcount : count ≤ 256) {row : Nat} (hrow : row < count) :
    (d.acceptAll (framePackets rows count)).front row = rows row := by
  have hback := (acceptAll_linePackets d rows hcount).2 row
  rw [if_pos hrow] at hback
  rw [framePackets, Display.acceptAll, List.foldl_append]
  exact hback

/-- Packets that do not swap leave the front alone. -/
theorem front_of_no_swap (d : Display) (packets : List (List UInt8))
    (h : ∀ packet ∈ packets, packet.head? ≠ some 0x04) : (d.acceptAll packets).front = d.front := by
  induction packets generalizing d with
  | nil => rfl
  | cons packet packets ih =>
      rw [Display.acceptAll, List.foldl_cons]
      refine (ih _ fun other hother => h other (List.mem_cons_of_mem _ hother)).trans ?_
      cases packet with
      | nil => rfl
      | cons command rest =>
          have hcommand : command ≠ 0x04 := fun heq =>
            h _ List.mem_cons_self (by rw [heq]; rfl)
          simp only [Display.accept, hcommand, if_false]
          split
          · rfl
          · split
            · split <;> rfl
            · rfl

theorem linePackets_no_swap (rows : Nat → List UInt8) (count : Nat) :
    ∀ packet ∈ linePackets rows count, packet.head? ≠ some 0x04 := by
  intro packet hpacket
  obtain ⟨row, -, hrow⟩ := List.mem_flatMap.mp hpacket
  simp only [rowPackets, List.mem_cons, List.not_mem_nil, or_false] at hrow
  cases hrow with
  | inl hline => simp [hline]
  | inr hstore => simp [hstore]

/-- Until the last packet of a frame the display shows the one before. -/
theorem front_before_swap (d : Display) (rows : Nat → List UInt8) (count : Nat)
    {quiet front rest : List (List UInt8)}
    (hquiet : ∀ packet ∈ quiet, packet.head? ≠ some 0x04) (hrest : rest ≠ [])
    (hsplit : quiet ++ framePackets rows count = front ++ rest) :
    (d.acceptAll front).front = d.front := by
  have hprefix : front <+: (quiet ++ linePackets rows count) ++ [[0x04, 0x00]] :=
    ⟨rest, by rw [← hsplit, framePackets, List.append_assoc]⟩
  refine front_of_no_swap d front fun packet hpacket => ?_
  cases List.prefix_concat_iff.mp hprefix with
  | inl hwhole =>
      refine absurd ?_ hrest
      rw [hwhole, framePackets, ← List.append_assoc] at hsplit
      exact List.self_eq_append_right.mp hsplit
  | inr hshorter =>
      exact (List.mem_append.mp (hshorter.subset hpacket)).elim (hquiet packet)
        (linePackets_no_swap rows count packet)

/-- After its packets, and others before them, the frame is in front. -/
theorem front_after_frame (d : Display) (rows : Nat → List UInt8) {count : Nat}
    (hcount : count ≤ 256) (before : List (List UInt8)) {row : Nat} (hrow : row < count) :
    (d.acceptAll (before ++ framePackets rows count)).front row = rows row := by
  rw [Display.acceptAll, List.foldl_append]
  exact front_framePackets _ rows hcount hrow

end LineDisplay
