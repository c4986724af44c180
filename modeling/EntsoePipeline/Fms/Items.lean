import EntsoePipeline.Py.Datetime
import EntsoePipeline.Py.Dict

set_option relaxedAutoImplicit false
set_option autoImplicit false

/-!
# Items of the file server

A directory listing of the file server is a list of raw items with optional fields. The crawlers
turn a raw item into a file record with a digest of its name, size and time.

## Main definitions

* `EntsoePipeline.RawItem` — an entry of a listing.
* `EntsoePipeline.FileMeta` — the record of a file.
* `EntsoePipeline.calculateIdempotencyHash` — the digest of name, size and time.
* `EntsoePipeline.textDigest` — the digest of a text by its encoded bytes.
* `EntsoePipeline.mapRawFmsItem` — the record of a raw item, with the defaults of its fields.

## Main results

* `EntsoePipeline.idempotencyText_injective` — with the name fixed, the digested text determines
  the size and the time.
* `EntsoePipeline.idempotencyText_eq_iff` — with no underscore in the time, it determines the name,
  the size and the time.

## Implementation notes

The digest of a text is a parameter `xxh` of the functions that use it. It stands for `textDigest`
of `xxh3_128`, which is not part of the repository.
-/

namespace EntsoePipeline

open Py

/-- An entry of a listing, with the fields the crawlers read. A field is `none` when the server
did not send it. -/
structure RawItem where
  /-- `"File"` or `"Folder"`. -/
  type : Option Str
  /-- The name of the entry. -/
  name : Option Str
  /-- The uncompressed size. -/
  originalSize : Option ℤ
  /-- The compressed size. -/
  size : Option ℤ
  /-- The time of the last modification. -/
  lastUpdatedTimestamp : Option Str
  /-- The id of a file. -/
  fileId : Option Str
  deriving DecidableEq

/-- The record of a file. -/
structure FileMeta where
  /-- The file name, relative to the crawled directory. -/
  name : Str
  /-- The id of the file. -/
  fileId : Str
  /-- The uncompressed size. -/
  originalBytes : ℤ
  /-- The compressed size. -/
  compressedBytes : ℤ
  /-- The time of the last modification. -/
  lastUpdated : Str
  /-- The digest of name, size and time. -/
  xxhash : Str
  deriving DecidableEq

/-- The text that is digested: `f"{name}_{size_bytes}_{last_updated}"`. -/
def idempotencyText (name : Str) (sizeBytes : ℤ) (lastUpdated : Str) : Str :=
  name ++ '_' :: (strInt sizeBytes ++ '_' :: lastUpdated)

/-- The digest of a text: `xxhash.xxh3_128(text.encode("utf-8")).hexdigest()`. -/
def textDigest (xxh3 : List UInt8 → Str) (text : Str) : Str := xxh3 (encodeUtf8 text)

/-- The digest of a file version. -/
def calculateIdempotencyHash (xxh : Str → Str) (name : Str) (sizeBytes : ℤ) (lastUpdated : Str) :
    Str :=
  xxh (idempotencyText name sizeBytes lastUpdated)

/-- The name of a raw item, empty when it has none. -/
def RawItem.itemName (item : RawItem) : Str := item.name.getD []

/-- The id of the file of a raw item, empty when it has none. -/
def RawItem.itemId (item : RawItem) : Str := item.fileId.getD []

/-- The record of a raw item. -/
def mapRawFmsItem (xxh : Str → Str) (item : RawItem) : FileMeta :=
  let name := item.itemName
  let sizeBytes := item.originalSize.getD 0
  let compSizeBytes := item.size.getD 0
  let lastUpdated := item.lastUpdatedTimestamp.getD []
  let fileId := item.fileId.getD []
  ⟨name, fileId, sizeBytes, compSizeBytes, lastUpdated,
    calculateIdempotencyHash xxh name sizeBytes lastUpdated⟩

/-- With the name fixed, the digested text determines the size and the time. -/
lemma idempotencyText_injective {name : Str} {a b : ℤ} {t u : Str}
    (h : idempotencyText name a t = idempotencyText name b u) : a = b ∧ t = u := by
  have hrest : strInt a ++ '_' :: t = strInt b ++ '_' :: u := by
    have := List.append_cancel_left h
    exact (List.cons.inj this).2
  have hsplit : strInt a :: split '_' t = strInt b :: split '_' u := by
    rw [← split_cons_of_not_mem (sep_not_mem_strInt a),
      ← split_cons_of_not_mem (sep_not_mem_strInt b), hrest]
  obtain ⟨hint, -⟩ := List.cons.inj hsplit
  rw [hint] at hrest
  exact ⟨strInt_injective hint, (List.cons.inj (List.append_cancel_left hrest)).2⟩

/-- The digested text determines the name, the size and the time, when the time has no underscore.
The name may have any. -/
lemma idempotencyText_eq_iff {name name' : Str} {a b : ℤ} {t u : Str} (ht : '_' ∉ t)
    (hu : '_' ∉ u) :
    idempotencyText name a t = idempotencyText name' b u ↔ name = name' ∧ a = b ∧ t = u := by
  have hassoc : ∀ (n : Str) (z : ℤ) (w : Str),
      idempotencyText n z w = (n ++ '_' :: strInt z) ++ '_' :: w := by
    intro n z w
    rw [List.append_assoc, List.cons_append]
    rfl
  rw [hassoc, hassoc, append_cons_inj_of_not_mem ht hu,
    append_cons_inj_of_not_mem (sep_not_mem_strInt a) (sep_not_mem_strInt b),
    strInt_injective.eq_iff, and_assoc]

example : idempotencyText "a".toList 1 "2_3".toList = idempotencyText "a_1".toList 2
    "3".toList := by
  decide

end EntsoePipeline
