import HermitLocal.Lib.Wire

/-! A flat memory of bytes: strings of bytes and 64-bit words are stored at an
address and loaded from one, and what is stored elsewhere is not touched. -/

namespace HermitLocal.Lib.ByteMemory
open Lib.Wire List

abbrev Memory := Nat → UInt8

def load (memory : Memory) (address count : Nat) : List UInt8 := (range count).map fun index => memory (address + index)

def store (memory : Memory) (address : Nat) (bytes : List UInt8) : Memory := fun place =>
  if address ≤ place ∧ place < address + bytes.length then bytes.getD (place - address) 0 else memory place

def loadWord (memory : Memory) (address : Nat) : Nat := leValue (load memory address 8)

def storeWord (memory : Memory) (address value : Nat) : Memory := store memory address (leBytes 8 value)

variable {memory other : Memory} {address count : Nat} {bytes : List UInt8}

@[simp] theorem load_length (memory : Memory) (address count : Nat) : (load memory address count).length = count := by
  simp [load]

variable {place : Nat}

theorem store_outside (outside : place < address ∨ address + bytes.length ≤ place) :
    store memory address bytes place = memory place := by
  unfold store
  rw [if_neg]
  omega

theorem store_inside {index : Nat} (inside : index < bytes.length) :
    store memory address bytes (address + index) = bytes[index] := by
  unfold store
  rw [if_pos (by omega), Nat.add_sub_cancel_left, getD_eq_getElem?_getD,
    getElem?_eq_getElem inside, Option.getD_some]

theorem load_congr (same : ∀ place, address ≤ place → place < address + count → memory place = other place) :
    load memory address count = load other address count := by
  apply map_congr_left
  intro index member
  have inside := mem_range.mp member
  exact same _ (Nat.le_add_right _ _) (Nat.add_lt_add_left inside _)

theorem load_take {shorter : Nat} (fewer : shorter ≤ count) :
    (load memory address count).take shorter = load memory address shorter := by
  unfold load
  rw [← map_take, take_range, Nat.min_eq_left fewer]

theorem load_store_same (memory : Memory) (address : Nat) (bytes : List UInt8) :
    load (store memory address bytes) address bytes.length = bytes := by
  apply ext_getElem
  · exact load_length _ _ _
  · intro index _ inside
    simp only [load, getElem_map, getElem_range]
    exact store_inside inside

theorem load_store_apart (apart : place + count ≤ address ∨ address + bytes.length ≤ place) :
    load (store memory address bytes) place count = load memory place count := by
  apply load_congr
  intro here start stop
  apply store_outside
  omega

theorem loadWord_congr (same : ∀ place, address ≤ place → place < address + 8 → memory place = other place) :
    loadWord memory address = loadWord other address := by
  unfold loadWord
  rw [load_congr same]

variable {value : Nat}

theorem loadWord_storeWord (small : value < WORD) :
    loadWord (storeWord memory address value) address = value := by
  have stored := load_store_same memory address (leBytes 8 value)
  rw [leBytes_length] at stored
  rw [loadWord, storeWord, stored, leValue_leBytes]
  exact Nat.mod_eq_of_lt small

theorem loadWord_storeWord_apart (apart : place + 8 ≤ address ∨ address + 8 ≤ place) :
    loadWord (storeWord memory address value) place = loadWord memory place := by
  unfold loadWord storeWord
  rw [load_store_apart]
  rwa [leBytes_length]

theorem storeWord_outside (outside : place < address ∨ address + 8 ≤ place) :
    storeWord memory address value place = memory place := by
  apply store_outside
  rwa [leBytes_length]

end HermitLocal.Lib.ByteMemory
