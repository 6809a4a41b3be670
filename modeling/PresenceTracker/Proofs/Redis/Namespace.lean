import PresenceTracker.Proofs.Json.Utf8
import PresenceTracker.Proofs.Redis.Server
import PresenceTracker.Redis.Cache

/-!
# Key spaces of caches on a server

The keys of a cache on a server begin with its name and a colon. A name without colons can be
read off such a key, so keys of caches with different names are different; and if nothing in
the name has a meaning in patterns then the pattern of a cache is fitted by exactly the keys that
begin like its own.
-/

namespace PresenceTracker

namespace Bytes

/-- The bytes of a text are those of one character behind the other. -/
theorem ofText_eq_flatMap (text : String) :
    ofText text = text.toList.flatMap String.utf8EncodeChar := by
  rw [← ofText_ofList, String.ofList_toList]

/-- The ASCII byte of a character that is not in a text is not among the bytes of the text. -/
theorem not_mem_ofText (char : Char) {byte : UInt8} (hbyte : byte < 128)
    (hchar : String.utf8EncodeChar char = [byte]) {text : String} (h : char ∉ text.toList) :
    byte ∉ ofText text := by
  rw [ofText_eq_flatMap, List.mem_flatMap]
  rintro ⟨other, hother, hmem⟩
  rcases utf8EncodeChar_ascii other with ⟨single, -, hsingle⟩ | hbeyond
  · rw [hsingle, List.mem_singleton] at hmem
    have hsame : String.ofList [other] = String.ofList [char] := by
      refine ofText_injective ?_
      rw [ofText_ofList, ofText_ofList, List.flatMap_singleton, List.flatMap_singleton, hsingle,
        hchar, hmem]
    have hchars : [other] = [char] := String.ofList_injective hsame
    exact h (List.singleton_inj.mp hchars ▸ hother)
  · exact UInt8.not_lt.mpr (hbeyond byte hmem) hbyte

end Bytes

namespace CacheName

open Bytes

/-- A name of a cache is proper if it has neither a colon nor a character with a meaning in
patterns. -/
def Proper (name : String) : Prop :=
  ∀ char ∈ [':', '*', '?', '[', ']', '\\'], char ∉ name.toList

theorem ofText_namespaced (name key : String) :
    ofText (namespaced name key) = ofText name ++ 58 :: ofText key := by
  rw [namespaced, ofText_append, ofText_append, List.append_assoc]
  rfl

theorem ofText_pattern (name : String) :
    ofText (pattern name) = ofText (namespaced name "") ++ [42] := by
  rw [ofText_namespaced, pattern, ofText_append, List.append_assoc]
  rfl

variable {name other : String}

theorem Proper.colon (h : Proper name) : 58 ∉ ofText name :=
  not_mem_ofText ':' (by decide) (by decide +kernel) (h ':' (by simp))

/-- No character with a meaning in patterns is in a proper name with a colon behind it. -/
theorem Proper.not_mem_front (h : Proper name) {char : Char} {byte : UInt8}
    (hmeant : char ∈ ['*', '?', '[', ']', '\\'])
    (hbyte : byte < 128 ∧ byte ≠ 58 ∧ String.utf8EncodeChar char = [byte]) :
    byte ∉ ofText (namespaced name "") := by
  have hname : byte ∉ ofText name :=
    not_mem_ofText char hbyte.1 hbyte.2.2 (h char (List.mem_cons_of_mem _ hmeant))
  rw [ofText_namespaced]
  exact fun hmem => (List.mem_append.mp hmem).elim hname fun htail =>
    hbyte.2.1 (List.mem_singleton.mp htail)

theorem Proper.isPlain (h : Proper name) : Redis.IsPlain (ofText (pattern name)) := by
  have hbracket : 91 ∉ ofText (namespaced name "") :=
    h.not_mem_front (show '[' ∈ _ by simp) (by decide +kernel)
  have hbackslash : 92 ∉ ofText (namespaced name "") :=
    h.not_mem_front (show '\\' ∈ _ by simp) (by decide +kernel)
  rw [Redis.IsPlain, ofText_pattern]
  constructor
  · simpa using hbracket
  · simpa using hbackslash

/-- The pattern of a cache is fitted by the keys that begin with its name and a colon. -/
theorem Proper.fits_iff (h : Proper name) (key : Bytes) :
    Redis.fits (ofText (pattern name)) key = true ↔ ofText (namespaced name "") <+: key := by
  have hstar : 42 ∉ ofText (namespaced name "") :=
    h.not_mem_front (show '*' ∈ _ by simp) (by decide +kernel)
  have hmark : 63 ∉ ofText (namespaced name "") :=
    h.not_mem_front (show '?' ∈ _ by simp) (by decide +kernel)
  rw [ofText_pattern, Redis.fits_star hstar hmark]

/-- A key of a cache begins with its name and a colon. -/
theorem prefix_namespaced (name key : String) :
    ofText (namespaced name "") <+: ofText (namespaced name key) := by
  refine ⟨ofText key, ?_⟩
  rw [ofText_namespaced, ofText_namespaced, List.append_assoc]
  rfl

/-- What stands in front of the first colon can be read off a key. -/
theorem takeWhile_colon {front : Bytes} (h : 58 ∉ front) (rest : Bytes) :
    (front ++ 58 :: rest).takeWhile (· != 58) = front := by
  rw [List.takeWhile_append_of_pos, List.takeWhile_cons_of_neg (by decide), List.append_nil]
  intro byte hbyte
  have hne : byte ≠ 58 := fun heq => h (heq ▸ hbyte)
  simpa using hne

/-- A key of a cache does not begin with another cache's name and a colon. -/
theorem Proper.eq_of_front (h : Proper name) (hother : Proper other) {key : String}
    (hfront : ofText (namespaced name "") <+: ofText (namespaced other key)) : name = other := by
  obtain ⟨rest, hrest⟩ := hfront
  rw [ofText_namespaced, ofText_namespaced, List.append_assoc] at hrest
  have hfront := congrArg (List.takeWhile (· != 58)) hrest
  rw [List.cons_append, takeWhile_colon h.colon, takeWhile_colon hother.colon] at hfront
  exact ofText_injective hfront

theorem namespaced_injective {key another : String}
    (h : ofText (namespaced name key) = ofText (namespaced name another)) : key = another := by
  rw [ofText_namespaced, ofText_namespaced, List.append_cancel_left_eq, List.cons_inj_right] at h
  exact ofText_injective h

/-- The name and the colon can be taken off a key. -/
theorem behind?_namespaced (name key : String) :
    RedisCache.behind? (namespaced name "") (namespaced name key) = some key := by
  have hchars : (namespaced name key).toList = (namespaced name "").toList ++ key.toList := by
    simp [namespaced]
  have hlength : (namespaced name "").length = (namespaced name "").toList.length :=
    String.length_toList.symm
  rw [RedisCache.behind?, hchars, hlength, List.drop_left, String.ofList_toList,
    if_pos (List.isPrefixOf_iff_prefix.mpr ⟨key.toList, rfl⟩)]

end CacheName

end PresenceTracker
