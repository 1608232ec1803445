import SchemaTypes.Text.Utf8
/-!
# BLAKE3

The default 256-bit hash.  The input is cut into chunks of 1024 bytes, a chunk into blocks of
64; blocks are chained through the compression function, and the chunks are the leaves of a
tree whose inner nodes compress the values of their two children.  The compression state is
four rows of four words, so a round is one `mix` of the columns and, after turning the rows,
one of the diagonals.
-/
namespace SchemaTypes.Blake3

abbrev Words := List UInt32

def initial : Words :=
  [0x6A09E667, 0xBB67AE85, 0x3C6EF372, 0xA54FF53A, 0x510E527F, 0x9B05688C, 0x1F83D9AB, 0x5BE0CD19]

def chunkStart : UInt32 := 1
def chunkEnd : UInt32 := 2
def parent : UInt32 := 4
def root : UInt32 := 8

/-! ## Compression -/

structure State where
  a : Words
  b : Words
  c : Words
  d : Words

def rotateRight (word amount : UInt32) : UInt32 := (word >>> amount) ||| (word <<< (32 - amount))

def add (x y : Words) : Words := List.zipWith (· + ·) x y

def xorRotate (amount : UInt32) (x y : Words) : Words :=
  List.zipWith (fun u v => rotateRight (u ^^^ v) amount) x y

/-- The quarter rounds of all four columns, fed with the message words `x` and then `y`. -/
def mix (s : State) (x y : Words) : State :=
  let a := add (add s.a s.b) x
  let d := xorRotate 16 s.d a
  let c := add s.c d
  let b := xorRotate 12 s.b c
  let a := add (add a b) y
  let d := xorRotate 8 d a
  let c := add c d
  let b := xorRotate 7 b c
  ⟨a, b, c, d⟩

/-- The words at the even positions. -/
def evens : Words → Words
  | x :: _ :: rest => x :: evens rest
  | rest => rest

def turn (n : Nat) (row : Words) : Words := row.drop n ++ row.take n

def round (s : State) (message : Words) : State :=
  let columns := message.take 8
  let diagonals := message.drop 8
  let s := mix s (evens columns) (evens (columns.drop 1))
  let s := mix ⟨s.a, turn 1 s.b, turn 2 s.c, turn 3 s.d⟩ (evens diagonals) (evens (diagonals.drop 1))
  ⟨s.a, turn 3 s.b, turn 2 s.c, turn 1 s.d⟩

/-- Where the next round takes its message words from. -/
def schedule : List Nat := [2, 6, 3, 10, 7, 0, 4, 13, 1, 11, 12, 5, 9, 14, 15, 8]

def permute (message : Words) : Words := schedule.map (message.getD · 0)

def rounds : Nat → State → Words → State
  | 0, s, _ => s
  | n + 1, s, message => rounds n (round s message) (permute message)

/-- What a node of the tree feeds to its last compression. -/
structure Node where
  chaining : Words
  block : Words
  counter : Nat
  length : Nat
  flags : UInt32

/-- The eight words a node hands on, compressed under its flags and `extra`. -/
def Node.value (node : Node) (extra : UInt32) : Words :=
  let s : State :=
    ⟨node.chaining.take 4, node.chaining.drop 4, initial.take 4,
      [.ofNat node.counter, .ofNat (node.counter / Nat.pow 2 32), .ofNat node.length, node.flags ||| extra]⟩
  let s := rounds 7 s node.block
  List.zipWith (· ^^^ ·) (s.a ++ s.b) (s.c ++ s.d)

/-! ## Chunks and the tree -/

/-- Cut a list into pieces of `size`, the last one possibly shorter; nothing is one empty piece. -/
def pieces (size : Nat) (bytes : List Nat) : List (List Nat) :=
  if bytes.length ≤ size ∨ size = 0 then [bytes]
  else bytes.take size :: pieces size (bytes.drop size)
termination_by bytes.length
decreasing_by simp_all; omega

/-- Little-endian words, four bytes each. -/
def wordsOfBytes : List Nat → Words
  | a :: b :: c :: d :: rest =>
    .ofNat (a + Nat.pow 2 8 * (b + Nat.pow 2 8 * (c + Nat.pow 2 8 * d))) :: wordsOfBytes rest
  | _ => []

def blockWords (bytes : List Nat) : Words :=
  wordsOfBytes (bytes ++ List.replicate (64 - bytes.length) 0)

/-- Chain the blocks of a chunk; the last one is left to be compressed by the tree. -/
def chainBlocks (counter : Nat) (flags : UInt32) (chaining : Words) : List (List Nat) → Node
  | [] => ⟨chaining, blockWords [], counter, 0, flags ||| chunkEnd⟩
  | [bytes] => ⟨chaining, blockWords bytes, counter, bytes.length, flags ||| chunkEnd⟩
  | bytes :: rest =>
    chainBlocks counter 0 (Node.value ⟨chaining, blockWords bytes, counter, 64, flags⟩ 0) rest

def chunkNode (counter : Nat) (bytes : List Nat) : Node :=
  chainBlocks counter chunkStart initial (pieces 64 bytes)

def parentNode (left right : Node) : Node :=
  ⟨initial, left.value 0 ++ right.value 0, 0, 64, parent⟩

/-- Join neighbours; a node without one moves up as it is. -/
def pairUp : List Node → List Node
  | left :: right :: rest => parentNode left right :: pairUp rest
  | rest => rest

theorem length_pairUp_le : ∀ nodes : List Node, (pairUp nodes).length ≤ nodes.length
  | [] => by simp [pairUp]
  | [_] => by simp [pairUp]
  | _ :: _ :: rest => by simp only [pairUp, List.length_cons]; have := length_pairUp_le rest; omega

/-- The node left when all neighbours have been joined. -/
def treeRoot : List Node → Node
  | [] => chunkNode 0 []
  | [node] => node
  | left :: right :: rest => treeRoot (parentNode left right :: pairUp rest)
termination_by nodes => nodes.length
decreasing_by simp only [List.length_cons]; have := length_pairUp_le rest; omega

def hexOfByte (byte : Nat) : List Char :=
  let digits := "0123456789abcdef".toList
  [digits.getD (byte / 16) '0', digits.getD (byte % 16) '0']

/-- A word's bytes in hexadecimal, the low byte first. -/
def hexOfWord (word : UInt32) : List Char :=
  [0, 8, 16, 24].flatMap fun shift => hexOfByte ((word.toNat >>> shift) % 256)

/-- The 64 hexadecimal digits of the hash. -/
def hexOfBytes (bytes : List Nat) : List Char :=
  let nodes := (pieces 1024 bytes).zipIdx.map fun (chunk, counter) => chunkNode counter chunk
  ((treeRoot nodes).value root).flatMap hexOfWord

/-- The hash of a text's UTF-8 bytes. -/
def hex (text : String) : String := String.ofList (hexOfBytes (Text.Utf8.encode text.toList))

end SchemaTypes.Blake3
