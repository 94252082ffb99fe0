import Cordboard.Proof.Archive.TailHealth

namespace Cordboard.Archive
open Data

/-- These bytes end no line. -/
def Unbroken (body : List UInt8) : Prop := ∀ byte ∈ body, byte ≠ 10 ∧ byte ≠ 13

/-- Each line ends with its line feed, and the last one may lack it. -/
inductive Lined : List (List UInt8) → Prop
  | nil : Lined []
  | last {body : List UInt8} (whole : Unbroken body) (some_ : body ≠ []) : Lined [body]
  | cons {body : List UInt8} {others : List (List UInt8)} (whole : Unbroken body) (rest : Lined others) :
      Lined ((body ++ [10]) :: others)

section
variable {bytes body raw : List UInt8} {raws : List (List UInt8)}

theorem rawLines_cons {byte : UInt8} (plain : byte ≠ 10 ∧ byte ≠ 13) : rawLines (byte :: bytes) =
    match rawLines bytes with
    | [] => [[byte]]
    | line :: others => (byte :: line) :: others := by
  have fresh : ¬ (byte = 10 ∨ byte = 13) := by
    rintro (same | same)
    · exact plain.1 same
    · exact plain.2 same
  rw [rawLines.eq_3]
  · exact if_neg fresh
  · intro rest same
    exact absurd same plain.2

theorem rawLines_newline : rawLines (10 :: bytes) = [10] :: rawLines bytes := by
  rw [rawLines.eq_3]
  · exact if_pos (.inl rfl)
  · intro rest same
    cases same

/-- The lines of a file are lined. -/
theorem rawLines_lined (bytes : List UInt8) : Lined (rawLines bytes) := by
  have blank : Unbroken [] := by
    intro byte member
    cases member
  fun_induction rawLines bytes with
  | case1 => exact .nil
  | case2 rest ih => exact .cons blank ih
  | case3 byte rest _ ended ih => exact .cons blank ih
  | case4 byte rest _ open_ none ih =>
      apply Lined.last _ (List.cons_ne_nil _ _)
      intro other member
      obtain rfl := List.mem_singleton.mp member
      exact not_or.mp open_
  | case5 byte rest _ open_ line others found ih =>
      have longer : ∀ {body : List UInt8}, Unbroken body → Unbroken (byte :: body) :=
        fun whole => List.forall_mem_cons.mpr ⟨not_or.mp open_, whole⟩
      rw [found] at ih
      cases ih with
      | last whole some_ => exact .last (longer whole) (List.cons_ne_nil _ _)
      | cons whole rest => exact .cons (longer whole) rest

theorem rawLines_body (whole : Unbroken body) (some_ : body ≠ []) : rawLines body = [body] := by
  induction body with
  | nil => exact absurd rfl some_
  | cons byte rest ih =>
      obtain ⟨plain, later⟩ := List.forall_mem_cons.mp whole
      rw [rawLines_cons plain]
      by_cases empty : rest = []
      · rw [empty]
        rfl
      · rw [ih later empty]

theorem rawLines_line (whole : Unbroken body) : rawLines (body ++ 10 :: bytes) = (body ++ [10]) :: rawLines bytes := by
  induction body with
  | nil => exact rawLines_newline
  | cons byte rest ih =>
      obtain ⟨plain, later⟩ := List.forall_mem_cons.mp whole
      rw [List.cons_append, rawLines_cons plain, ih later]
      rfl

/-- Lines that are written one after another are read back. -/
theorem rawLines_flatten (lined : Lined raws) : rawLines raws.flatten = raws := by
  induction lined with
  | nil => rfl
  | last whole some_ =>
      rw [List.flatten_singleton]
      exact rawLines_body whole some_
  | cons whole rest ih => rw [List.flatten_cons, List.append_assoc, List.singleton_append, rawLines_line whole, ih]

theorem Lined.dropLast (lined : Lined raws) : Lined raws.dropLast := by
  induction lined with
  | nil => exact .nil
  | last whole some_ => exact .nil
  | @cons body others whole rest ih =>
      cases others with
      | nil => exact .nil
      | cons next later => exact .cons whole ih

end

/-- The bytes of a text. -/
def utf8 (text : String) : List UInt8 := text.toUTF8.data.toList

/-- A complete text stream of `gzip.open` has the lines of the bytes that it unpacks. -/
def Codec.Textual (codec : Codec) : Prop :=
  ∀ bytes, (codec.gunzip bytes).stop = none →
    ∃ content, (rawLines content).mapM decodeUtf8 = some (codec.gunzip bytes).lines

section
variable {codec : Codec} {file : ArchiveFile} {files : List ArchiveFile} {bytes : List UInt8} {text : String}
  {raws : List (List UInt8)} {lines : List String}

/-- Bytes decode to the text that they encode, and to nothing else. -/
theorem decodeUtf8_iff : decodeUtf8 bytes = some text ↔ utf8 text = bytes := by
  unfold decodeUtf8 String.fromUTF8? utf8
  constructor
  · intro decoded
    split at decoded
    · obtain rfl := Option.some.inj decoded
      rfl
    · cases decoded
  · rintro rfl
    have own : (⟨(text.toUTF8.data.toList).toArray⟩ : ByteArray) = text.toByteArray := rfl
    rw [own, dif_pos text.isValidUTF8]
    rfl

theorem decode_lines : raws.mapM decodeUtf8 = some lines ↔ lines.map utf8 = raws := by
  induction raws generalizing lines with
  | nil => cases lines <;> simp
  | cons raw rest ih =>
      rw [List.mapM_cons]
      constructor
      · intro done
        obtain ⟨first, own, later⟩ := Option.bind_eq_some_iff.mp done
        obtain ⟨others, read, same⟩ := Option.bind_eq_some_iff.mp later
        obtain rfl := Option.some.inj same
        rw [List.map_cons, decodeUtf8_iff.mp own, ih.mp read]
      · intro same
        cases lines with
        | nil => cases same
        | cons first others =>
            obtain ⟨own, later⟩ := List.cons.inj same
            rw [decodeUtf8_iff.mpr own, ih.mpr later]
            rfl

theorem utf8_join : utf8 (String.join lines) = (lines.map utf8).flatten := by
  induction lines with
  | nil => rfl
  | cons first rest ih =>
      rw [List.map_cons, List.flatten_cons, ← ih, String.join_cons]
      unfold utf8
      simp

/-- The lines of a stream that ends are lined. -/
theorem stream_lined (textual : codec.Textual) (ended : (file.stream codec).stop = none) :
    Lined ((file.stream codec).lines.map utf8) := by
  have content : ∃ content, (rawLines content).mapM decodeUtf8 = some (file.stream codec).lines := by
    unfold ArchiveFile.stream at ended ⊢
    split at ended
    · rename_i closed
      rw [if_pos closed]
      exact textual file.bytes ended
    · rename_i plain
      rw [if_neg plain]
      cases decoded : (rawLines file.bytes).mapM decodeUtf8 with
      | some lines => exact ⟨file.bytes, decoded⟩
      | none =>
          rw [decoded] at ended
          cases ended
  obtain ⟨content, decoded⟩ := content
  rw [decode_lines.mp decoded]
  exact rawLines_lined content

theorem remaining_lined (textual : codec.Textual) (ended : (file.stream codec).stop = none) :
    Lined ((remaining codec file).map utf8) := by
  have whole := stream_lined textual ended
  unfold remaining
  split
  · rw [List.map_dropLast]
    exact whole.dropLast
  · exact whole

/-- A copy of lined texts is read back line by line. -/
theorem snapshot_stream (lined : Lined (lines.map utf8)) (index : Nat) :
    (snapshot lines index).stream codec = ⟨lines, none⟩ := by
  have bytes : (snapshot lines index).bytes = (lines.map utf8).flatten := utf8_join
  have read : (rawLines (snapshot lines index).bytes).mapM decodeUtf8 = some lines := by
    rw [bytes, rawLines_flatten lined]
    exact decode_lines.mpr rfl
  have plain : (snapshot lines index).closed = false := rfl
  rw [ArchiveFile.stream, plain, read]
  rfl

theorem filter_zipIdx {A : Type} (items : List A) (kept : A → Bool) :
    (items.zipIdx.filter fun item => kept item.1).map Prod.fst = items.filter kept := by
  have whole : items.zipIdx.map Prod.fst = items := List.zipIdx_map_fst 0 items
  calc (items.zipIdx.filter fun item => kept item.1).map Prod.fst
      = (items.zipIdx.map Prod.fst).filter kept := (List.filter_map ..).symm
    _ = items.filter kept := by rw [whole]

/-- The strict reader sees the copies as the visible lines. -/
theorem strict_copies {shown : List (List String)} (lined : ∀ lines ∈ shown, Lined (lines.map utf8)) :
    strictSpans codec ((shown.zipIdx.filter fun item => !item.1.isEmpty).map fun item => snapshot item.1 item.2) =
      raised (readSpans ((shown.filter fun lines => !lines.isEmpty).map fun lines => lines.map (load codec))) := by
  have stream : ∀ item ∈ shown.zipIdx.filter fun item => !item.1.isEmpty,
      (snapshot item.1 item.2).stream codec = ⟨item.1, none⟩ := by
    intro item member
    have listed : item.1 ∈ shown := by
      rw [← List.zipIdx_map_fst 0 shown]
      exact List.mem_map_of_mem (List.mem_filter.mp member).1
    exact snapshot_stream (lined item.1 listed) item.2
  rw [strictSpans_ended, ← filter_zipIdx shown, List.map_map, List.map_map]
  · congr 2
    apply List.map_congr_left
    intro item member
    dsimp only [Function.comp]
    rw [stream item member]
  · intro file member
    obtain ⟨item, inside, rfl⟩ := List.mem_map.mp member
    rw [stream item inside]

/-- The copies change nothing. -/
theorem readActiveCopies_eq (textual : codec.Textual) : readActiveCopies codec files = readActiveSpans codec files := by
  rcases stopped_or_ended codec files with stopped | ended
  · obtain ⟨failure, fails⟩ := visible_fails stopped
    rw [readActiveCopies, readActiveSpans, fails]
    rfl
  · have lined : ∀ lines ∈ (files.map fun file => (remaining codec file, aside codec file)).map Prod.fst,
        Lined (lines.map utf8) := by
      intro lines member
      rw [List.map_map] at member
      obtain ⟨file, inside, rfl⟩ := List.mem_map.mp member
      exact remaining_lined textual (ended file inside)
    rw [readActiveCopies, readActiveSpans, visible_map ended]
    dsimp only [bind, Except.bind]
    generalize (files.map fun file => (remaining codec file, aside codec file)).map Prod.fst = shown at lined ⊢
    have empty : ((shown.zipIdx.filter fun item => !item.1.isEmpty).map fun item => snapshot item.1 item.2).isEmpty =
        (shown.filter fun lines => !lines.isEmpty).isEmpty := by
      rw [← filter_zipIdx shown, List.isEmpty_map, List.isEmpty_map]
    rw [strict_copies lined, empty]

end

end Cordboard.Archive
