import TreeExport.Proofs.Disk.Writing

/-!
Reading back what was written. A text is kept as its bytes, and comes back unless it has line breaks of
another kind than line feeds.
-/

namespace TreeExport

namespace Text

theorem decodeUtf8_toUTF8 (text : String) : decodeUtf8 text.toUTF8 = .ok text := by
  have read : String.fromUTF8? text.toUTF8 = some text := by
    rw [String.fromUTF8?, String.toUTF8_eq_toByteArray, dif_pos text.isValidUTF8]
    rfl
  rw [decodeUtf8, read]

theorem universalNewlines_of_not_mem {text : List Char} (absent : '\r' ∉ text) :
    universalNewlines text = text := by
  induction text with
  | nil => rfl
  | cons c rest ih =>
      rw [List.mem_cons, not_or] at absent
      rw [universalNewlines, ih absent.2]
      · rintro rest rfl
        exact absurd rfl absent.1
      · rintro rfl
        exact absurd rfl absent.1

end Text

namespace Disk

variable {disk later : Disk} {path : Path} {text : String}

theorem Wrote.read_eq (wrote : Wrote path text disk later) : later.read path = .ok text.toUTF8 := by
  obtain ⟨place, located, files⟩ := wrote.lands
  exact read_of_fileAt? located (by rw [files, if_pos rfl])

theorem Wrote.readText_eq (wrote : Wrote path text disk later) (absent : '\r' ∉ text.toList) :
    later.readText path = .ok text := by
  rw [readText, wrote.read_eq, mapError_ok, bind_of_eq_ok rfl, Text.decodeUtf8_toUTF8, mapError_ok,
    bind_of_eq_ok rfl, Text.universalNewlines_of_not_mem absent, String.ofList_toList]
  rfl

theorem readText_of_write (saved : (write path text).run disk = (.ok (), later))
    (absent : '\r' ∉ text.toList) : later.readText path = .ok text := by
  rcases write_run path text disk with ⟨error, after, failed, _⟩ | ⟨after, ran, wrote⟩
  · rw [saved] at failed
    exact absurd (congrArg Prod.fst failed) nofun
  · rw [saved] at ran
    have same : later = after := congrArg Prod.snd ran
    rw [same]
    exact wrote.readText_eq absent

end Disk

end TreeExport
