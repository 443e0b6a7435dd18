/-!
# BLAKE3

The 256-bit BLAKE3 digest of a list of bytes. The bytes are cut into chunks of 1024 and these into
blocks of 64; every chunk becomes a leaf of a binary tree, and the digest is taken at the root.
-/

namespace TrendLadder.Blake3

/-- Sixteen words: a message block or the working state. -/
abbrev Block := Vector UInt32 16

/-- Eight words that stand for what was hashed so far. -/
abbrev Chaining := Vector UInt32 8

/-- The chaining value that hashing starts from. -/
def initial : Chaining :=
  #v[0x6A09E667, 0xBB67AE85, 0x3C6EF372, 0xA54FF53A, 0x510E527F, 0x9B05688C, 0x1F83D9AB, 0x5BE0CD19]

/-- The order in which a round hands its message words to the next one. -/
def permutation : Vector (Fin 16) 16 := #v[2, 6, 3, 10, 7, 0, 4, 13, 1, 11, 12, 5, 9, 14, 15, 8]

/-- Marks the first block of a chunk. -/
def chunkStart : UInt32 := 1

/-- Marks the last block of a chunk. -/
def chunkEnd : UInt32 := 2

/-- Marks a node with two children. -/
def parent : UInt32 := 4

/-- Marks the root. -/
def root : UInt32 := 8

/-- The bytes of a block. -/
def blockSize : Nat := 64

/-- The bytes of a chunk. -/
def chunkSize : Nat := 1024

/-- A word turned right by `n` bits. -/
def rotateRight (x n : UInt32) : UInt32 := (x >>> n) ||| (x <<< (32 - n))

/-- Mixes two message words into four words of the state. -/
def mix (s : Block) (a b c d : Fin 16) (x y : UInt32) : Block :=
  let a₁ := s[a] + s[b] + x
  let d₁ := rotateRight (s[d] ^^^ a₁) 16
  let c₁ := s[c] + d₁
  let b₁ := rotateRight (s[b] ^^^ c₁) 12
  let a₂ := a₁ + b₁ + y
  let d₂ := rotateRight (d₁ ^^^ a₂) 8
  let c₂ := c₁ + d₂
  let b₂ := rotateRight (b₁ ^^^ c₂) 7
  (((s.set a a₂).set b b₂).set c c₂).set d d₂

/-- Mixes a message into the columns and then the diagonals of the state. -/
def round (s m : Block) : Block :=
  let s := mix s 0 4 8 12 m[0] m[1]
  let s := mix s 1 5 9 13 m[2] m[3]
  let s := mix s 2 6 10 14 m[4] m[5]
  let s := mix s 3 7 11 15 m[6] m[7]
  let s := mix s 0 5 10 15 m[8] m[9]
  let s := mix s 1 6 11 12 m[10] m[11]
  let s := mix s 2 7 8 13 m[12] m[13]
  mix s 3 4 9 14 m[14] m[15]

/-- The given number of rounds, the message being permuted between them. -/
def rounds : Nat → Block → Block → Block
  | 0, s, _ => s
  | n + 1, s, m => rounds n (round s m) (permutation.map fun i => m[i])

/-- A node of the tree before it is known whether it is the root. -/
structure Node where
  chaining : Chaining
  block : Block
  counter : UInt64
  length : UInt32
  flags : UInt32

namespace Node

/-- The first half of the compressed node, with extra flags. -/
def compress (n : Node) (extra : UInt32) : Chaining :=
  let h := n.chaining
  let start : Block := #v[
    h[0], h[1], h[2], h[3], h[4], h[5], h[6], h[7], initial[0], initial[1], initial[2], initial[3],
    n.counter.toUInt32, (n.counter >>> 32).toUInt32, n.length, n.flags ||| extra]
  let s := rounds 7 start n.block
  Vector.ofFn fun i : Fin 8 => s.get ⟨i, by omega⟩ ^^^ s.get ⟨i + 8, by omega⟩

/-- The chaining value that the node hands to its parent. -/
def output (n : Node) : Chaining := n.compress 0

end Node

/-- The word of four bytes, the lowest first; missing bytes are zero. -/
def word (bytes : List UInt8) : UInt32 :=
  (bytes.take 4).foldr (fun b w => b.toUInt32 ||| (w <<< 8)) 0

/-- The words of a block of at most sixteen. -/
def blockOf (bytes : List UInt8) : Block :=
  Vector.ofFn fun i : Fin 16 => word (bytes.drop (4 * i.val))

/-- A list cut into pieces of the given size, the last one perhaps shorter. The fuel bounds the
number of pieces. -/
def pieces (size : Nat) : Nat → List UInt8 → List (List UInt8)
  | 0, _ => []
  | fuel + 1, bytes =>
    if bytes.length ≤ size then [bytes] else bytes.take size :: pieces size fuel (bytes.drop size)

/-- Folds the blocks of a chunk into its node. -/
def chunkBlocks (counter : UInt64) (chaining : Chaining) (flags : UInt32) :
    List (List UInt8) → Node
  | [] => ⟨chaining, blockOf [], counter, 0, flags ||| chunkEnd⟩
  | [last] => ⟨chaining, blockOf last, counter, last.length.toUInt32, flags ||| chunkEnd⟩
  | block :: rest =>
    let node : Node := ⟨chaining, blockOf block, counter, block.length.toUInt32, flags⟩
    chunkBlocks counter node.output 0 rest

/-- The leaf of a chunk. -/
def leaf (counter : Nat) (chunk : List UInt8) : Node :=
  chunkBlocks counter.toUInt64 initial chunkStart (pieces blockSize (chunk.length + 1) chunk)

/-- The node above two others. -/
def join (left right : Node) : Node :=
  ⟨initial, (left.output ++ right.output).cast rfl, 0, blockSize.toUInt32, parent⟩

/-- One level of the tree: neighbours are joined and a last odd node moves up. -/
def joinPairs : List Node → List Node
  | left :: right :: rest => join left right :: joinPairs rest
  | nodes => nodes

/-- The node at the top, reached after at most `fuel` levels. -/
def top : Nat → Node → List Node → Node
  | 0, first, _ => first
  | _, first, [] => first
  | fuel + 1, first, second :: rest =>
    match joinPairs (first :: second :: rest) with
    | [] => first
    | node :: nodes => top fuel node nodes

/-- The digest of some bytes as eight words. -/
def digest (bytes : List UInt8) : Chaining :=
  match (pieces chunkSize (bytes.length + 1) bytes).mapIdx leaf with
  | [] => (leaf 0 []).compress root
  | node :: nodes => (top (nodes.length + 1) node nodes).compress root

/-- The two hexadecimal digits of a byte. -/
def hexByte (b : UInt8) : List Char := [Nat.digitChar (b.toNat / 16), Nat.digitChar (b.toNat % 16)]

/-- The bytes of a word, the lowest first. -/
def wordBytes (w : UInt32) : List UInt8 :=
  [w.toUInt8, (w >>> 8).toUInt8, (w >>> 16).toUInt8, (w >>> 24).toUInt8]

/-- The digest of a text in lowercase hexadecimal digits. -/
def hex (s : String) : String :=
  String.ofList ((digest s.toUTF8.toList).toList.flatMap fun w => (wordBytes w).flatMap hexByte)

end TrendLadder.Blake3
