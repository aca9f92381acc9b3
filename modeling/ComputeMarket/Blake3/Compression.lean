/-
This file defines the compression function of BLAKE3.
-/

namespace ComputeMarket.Blake3

def rotateRight (word : UInt32) (count : UInt32) : UInt32 :=
  (word >>> count) ||| (word <<< (32 - count))

/-- One column of the four-by-four state. -/
structure Column where
  first : UInt32
  second : UInt32
  third : UInt32
  fourth : UInt32

/-- The quarter round: mixes two message words into a column. -/
def Column.mix (column : Column) (left right : UInt32) : Column :=
  let a := column.first + column.second + left
  let d := rotateRight (column.fourth ^^^ a) 16
  let c := column.third + d
  let b := rotateRight (column.second ^^^ c) 12
  let a := a + b + right
  let d := rotateRight (d ^^^ a) 8
  let c := c + d
  let b := rotateRight (b ^^^ c) 7
  ⟨a, b, c, d⟩

/-- The state of sixteen words as its four columns. -/
structure State where
  column0 : Column
  column1 : Column
  column2 : Column
  column3 : Column

namespace State

/-- Mixes the first eight words of a message into the columns. -/
def mixColumns (state : State) (message : List UInt32) : State :=
  match message with
  | m0 :: m1 :: m2 :: m3 :: m4 :: m5 :: m6 :: m7 :: _ =>
    ⟨state.column0.mix m0 m1, state.column1.mix m2 m3,
      state.column2.mix m4 m5, state.column3.mix m6 m7⟩
  | _ => state

/-- The diagonals of the state, as columns of a new one. -/
def diagonals (state : State) : State :=
  let ⟨p, q, r, s⟩ := state
  ⟨⟨p.first, q.second, r.third, s.fourth⟩, ⟨q.first, r.second, s.third, p.fourth⟩,
    ⟨r.first, s.second, p.third, q.fourth⟩, ⟨s.first, p.second, q.third, r.fourth⟩⟩

/-- The state whose diagonals are given as columns. -/
def ofDiagonals (state : State) : State :=
  let ⟨p, q, r, s⟩ := state
  ⟨⟨p.first, s.second, r.third, q.fourth⟩, ⟨q.first, p.second, s.third, r.fourth⟩,
    ⟨r.first, q.second, p.third, s.fourth⟩, ⟨s.first, r.second, q.third, p.fourth⟩⟩

/-- One round mixes the columns, then the diagonals. -/
def round (state : State) (message : List UInt32) : State :=
  ofDiagonals ((state.mixColumns message).diagonals.mixColumns (message.drop 8))

/-- The first two words of every column, each combined with the word two below it. -/
def fold (state : State) : List UInt32 :=
  let ⟨p, q, r, s⟩ := state
  [p.first ^^^ p.third, q.first ^^^ q.third, r.first ^^^ r.third, s.first ^^^ s.third,
    p.second ^^^ p.fourth, q.second ^^^ q.fourth, r.second ^^^ r.fourth, s.second ^^^ s.fourth]

end State

/-- Where each word of the next round's message is found in this round's. -/
def permutation : List Nat := [2, 6, 3, 10, 7, 0, 4, 13, 1, 11, 12, 5, 9, 14, 15, 8]

/-- The words of a message in the order of the next round. -/
def permute (message : List UInt32) : List UInt32 :=
  permutation.map fun index => message.getD index 0

def rounds : (count : Nat) → State → List UInt32 → State
  | 0, state, _ => state
  | count + 1, state, message => rounds count (state.round message) (permute message)

/-- The eight words that every hash starts from. -/
def initialWords : List UInt32 :=
  [0x6a09e667, 0xbb67ae85, 0x3c6ef372, 0xa54ff53a, 0x510e527f, 0x9b05688c, 0x1f83d9ab, 0x5be0cd19]

/-- The state that a block is mixed into. -/
def start (chaining : List UInt32) (counter length flags : Nat) : State :=
  let word (index : Nat) : UInt32 := chaining.getD index 0
  ⟨⟨word 0, word 4, 0x6a09e667, UInt32.ofNat counter⟩,
    ⟨word 1, word 5, 0xbb67ae85, UInt32.ofNat (counter / 0x100000000)⟩,
    ⟨word 2, word 6, 0x3c6ef372, UInt32.ofNat length⟩,
    ⟨word 3, word 7, 0xa54ff53a, UInt32.ofNat flags⟩⟩

/-- The eight words that a block of sixteen words makes of eight chaining words. -/
def compress (chaining message : List UInt32) (counter length flags : Nat) : List UInt32 :=
  (rounds 7 (start chaining counter length flags) message).fold

end ComputeMarket.Blake3
