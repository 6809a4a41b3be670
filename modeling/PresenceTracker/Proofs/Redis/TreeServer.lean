import PresenceTracker.Proofs.Json.Number
import PresenceTracker.Proofs.Json.Utf8
import PresenceTracker.Proofs.Redis.Server
import PresenceTracker.Table

/-!
# A server that keeps its values in a tree

Each key has at most one entry, which stays until it is written over or deleted, and is passed
over once it has expired. The server does what is documented of the commands that caches send,
so what is shown of all such servers is shown of at least one.
-/

namespace PresenceTracker

/-- Written digits are the bytes of the digits. -/
theorem Decimal.ofText_text (digits : Digits) : Bytes.ofText (text digits) = digits.map byte := by
  have hdigit : ∀ digit : Fin 10,
      String.utf8EncodeChar (Char.ofNat (48 + digit.val)) = [byte digit] := by decide +kernel
  rw [text, Bytes.ofText_ofList, List.flatMap_map]
  induction digits with
  | nil => rfl
  | cons digit rest ih => rw [List.flatMap_cons, hdigit, ih, List.map_cons, List.singleton_append]

/-- A written number reads back. -/
theorem Decimal.toNat_leading_natText (value : Nat) :
    toNat (leading (Bytes.ofText (natText value))) = value := by
  have hleading := leading_map_byte (digits value) (show EndsDigits [] from nofun)
  rw [List.append_nil] at hleading
  rw [natText, ofText_text, hleading, toNat_digits]

namespace Redis

/-- Entries by key. -/
abbrev Tree := Std.ExtTreeMap Bytes CacheEntry

namespace Tree

/-- The value of a key at a moment. -/
def find (tree : Tree) (now : Duration) (key : Bytes) : Option Bytes :=
  (tree[key]?.filter fun entry => entry.isLive now).map CacheEntry.value

/-- The keys that have a value at a moment and fit a pattern. -/
def list (tree : Tree) (now : Duration) (pattern : Bytes) : List Bytes :=
  (tree.filter fun key entry => entry.isLive now && fits pattern key).keys

/-- The reply to a command at a moment, and the entries afterwards. -/
def respond (now : Duration) (command : Command) : StateM Tree Reply := fun tree =>
  match command.name, command.arguments with
  | "GET", [key] => ((tree.find now key).elim .nil .bulk, tree)
  | "SET", [key, value] => (.simple "OK", tree.insert key ⟨value, none⟩)
  | "PSETEX", [key, lifetime, value] =>
    let count := Decimal.toNat (Decimal.leading lifetime)
    (.simple "OK", tree.insert key ⟨value, some (now + Duration.ofMillis count)⟩)
  | "DEL", keys =>
    (.integer (keys.filter fun key => (tree.find now key).isSome).length,
      tree.filter fun key _ => !keys.contains key)
  | "KEYS", [pattern] => (.list (tree.list now pattern), tree)
  | _, _ => (.failure "ERR unknown command", tree)

/-- The server. -/
def server : Server Tree where
  respond := respond
  find := find

theorem puts_insert (tree : Tree) (now : Duration) (key : Bytes) (entry : CacheEntry) :
    server.Puts now tree (tree.insert key entry) key entry := by
  intro moment other _
  have hlook : (tree.insert key entry)[other]? =
      if key = other then some entry else tree[other]? := by simp [Std.ExtTreeMap.getElem?_insert]
  show ((tree.insert key entry)[other]?.filter _).map _ = _
  rw [hlook]
  by_cases hsame : other = key
  · subst hsame
    rw [if_pos rfl, if_pos rfl, Option.filter_some]
    split <;> rfl
  · rw [if_neg (Ne.symm hsame), if_neg hsame]
    rfl

theorem drops_filter (tree : Tree) (now : Duration) (keys : List Bytes) :
    server.Drops now tree (tree.filter fun key _ => !keys.contains key) keys := by
  intro moment other _
  have hlook : (tree.filter fun key _ => !keys.contains key)[other]? =
      tree[other]?.filter fun _ => !keys.contains other := by simp
  show ((tree.filter fun key _ => !keys.contains key)[other]?.filter _).map _ = _
  rw [hlook]
  split
  · next hgone => cases tree[other]? <;> simp [hgone]
  · next hkept => simp [hkept, server, find]

theorem mem_list_iff (tree : Tree) (now : Duration) (pattern key : Bytes) :
    key ∈ tree.list now pattern ↔ (tree.find now key).isSome = true ∧ fits pattern key = true := by
  have hlook : (tree.filter fun key entry => entry.isLive now && fits pattern key)[key]? =
      tree[key]?.filter fun entry => entry.isLive now && fits pattern key := by simp
  rw [list, Std.ExtTreeMap.mem_keys, Std.ExtTreeMap.mem_iff_isSome_getElem?, hlook, find]
  cases tree[key]? with
  | none => simp
  | some entry => simp [Option.filter_some]

/-- The server does what is documented. -/
theorem server_documented : server.Documented where
  get now key tree := ⟨rfl, fun _ _ _ => rfl⟩
  set now key value tree := ⟨rfl, tree.puts_insert now key ⟨value, none⟩⟩
  setFor now key value count tree _ _ := by
    refine ⟨rfl, ?_⟩
    show server.Puts now tree (tree.insert key ⟨value, some (now + Duration.ofMillis
      (Decimal.toNat (Decimal.leading (Bytes.ofText (Decimal.natText count)))))⟩) key _
    rw [Decimal.toNat_leading_natText]
    exact tree.puts_insert now key _
  delete now keys tree _ := ⟨⟨_, rfl⟩, tree.drops_filter now keys⟩
  keys now pattern tree _ :=
    ⟨⟨_, rfl, Std.ExtTreeMap.nodup_keys, tree.mem_list_iff now pattern⟩, fun _ _ _ => rfl⟩

end Tree

end Redis

end PresenceTracker
