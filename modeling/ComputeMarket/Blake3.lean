import ComputeMarket.Blake3.Compression
import ComputeMarket.Word

/-
This file defines the hash function BLAKE3 with an output of 32 bytes.
-/

namespace ComputeMarket.Blake3

/-- Cuts a list into pieces of `size`, the last one as long as what is left.
The empty list is one empty piece. -/
def pieces (size : Nat) : (fuel : Nat) → List UInt8 → List (List UInt8)
  | 0, bytes => [bytes]
  | fuel + 1, bytes =>
    if bytes.length ≤ size then [bytes]
    else bytes.take size :: pieces size fuel (bytes.drop size)

/-- The word at an index of a block, lowest byte first. -/
def wordAt (bytes : List UInt8) (index : Nat) : UInt32 :=
  let byte (offset : Nat) : UInt32 := (bytes.getD (4 * index + offset) 0).toUInt32
  byte 0 ||| (byte 1 <<< 8) ||| (byte 2 <<< 16) ||| (byte 3 <<< 24)

/-- The sixteen words of a block, lowest byte first, filled up with zeros. -/
def blockWords (bytes : List UInt8) : List UInt32 :=
  (List.range 16).map (wordAt bytes)

/-- A block that waits for its compression, which is another one at the root. -/
structure Node where
  chaining : List UInt32
  message : List UInt32
  counter : Nat
  length : Nat
  flags : Nat

namespace Node

def chunkStart : Nat := 1
def chunkEnd : Nat := 2
def parentFlag : Nat := 4
def rootFlag : Nat := 8

def words (node : Node) : List UInt32 :=
  compress node.chaining node.message node.counter node.length node.flags

/-- The first sixteen words of the output. -/
def rootWords (node : Node) : List UInt32 :=
  compress node.chaining node.message 0 node.length (node.flags + rootFlag)

/-- The block that joins two subtrees. -/
def parent (left right : List UInt32) : Node :=
  ⟨initialWords, left ++ right, 0, 64, parentFlag⟩

/-- The last block of a chunk whose earlier blocks have been compressed. -/
def ofBlocks (counter : Nat) (chaining : List UInt32) (startFlag : Nat) :
    List (List UInt8) → Node
  | [] => ⟨chaining, blockWords [], counter, 0, startFlag + chunkEnd⟩
  | [last] => ⟨chaining, blockWords last, counter, last.length, startFlag + chunkEnd⟩
  | block :: rest =>
    ofBlocks counter (compress chaining (blockWords block) counter 64 startFlag) 0 rest

/-- The last block of chunk number `counter`. -/
def ofChunk (counter : Nat) (chunk : List UInt8) : Node :=
  ofBlocks counter initialWords chunkStart (pieces 64 chunk.length chunk)

end Node

/-- Adds a finished subtree to a row of full trees, of which slot `i` holds one of
2 ^ i chunks or none. -/
def addTree (tree : List UInt32) : List (Option (List UInt32)) → List (Option (List UInt32))
  | [] => [some tree]
  | none :: rest => some tree :: rest
  | some left :: rest => none :: addTree (Node.parent left tree).words rest

/-- Joins the last chunk to the full trees on its left, smallest first. -/
def joinTrees (last : Node) (trees : List (Option (List UInt32))) : Node :=
  trees.foldl (fun node tree => tree.elim node fun left => Node.parent left node.words) last

/-- The root over chunks that come one after the other. -/
def rootOfChunks (counter : Nat) (trees : List (Option (List UInt32))) :
    List (List UInt8) → Node
  | [] => joinTrees (Node.ofChunk counter []) trees
  | [last] => joinTrees (Node.ofChunk counter last) trees
  | chunk :: rest =>
    rootOfChunks (counter + 1) (addTree (Node.ofChunk counter chunk).words trees) rest

def wordBytes (word : UInt32) : List UInt8 :=
  [word.toUInt8, (word >>> 8).toUInt8, (word >>> 16).toUInt8, (word >>> 24).toUInt8]

def hash (bytes : List UInt8) : Word :=
  let root := rootOfChunks 0 [] (pieces 1024 bytes.length bytes)
  Word.ofBytes (root.rootWords.flatMap wordBytes)

end ComputeMarket.Blake3
