import SmartIdVault.Lib.Bytes

/-! SHA-256.  Words are natural numbers below `2 ^ 32`. -/

namespace Sha256

abbrev Word := Nat

def add (x y : Word) : Word := (x + y) % 2 ^ 32

def rotr (n : Nat) (x : Word) : Word := x >>> n ||| x <<< (32 - n) % 2 ^ 32

def bigSigma0 (x : Word) : Word := rotr 2 x ^^^ rotr 13 x ^^^ rotr 22 x
def bigSigma1 (x : Word) : Word := rotr 6 x ^^^ rotr 11 x ^^^ rotr 25 x
def smallSigma0 (x : Word) : Word := rotr 7 x ^^^ rotr 18 x ^^^ x >>> 3
def smallSigma1 (x : Word) : Word := rotr 17 x ^^^ rotr 19 x ^^^ x >>> 10

def ch (x y z : Word) : Word := x &&& y ^^^ (2 ^ 32 - 1 - x) &&& z
def maj (x y z : Word) : Word := x &&& y ^^^ x &&& z ^^^ y &&& z

def constants : List Word :=
  [0x428a2f98, 0x71374491, 0xb5c0fbcf, 0xe9b5dba5, 0x3956c25b, 0x59f111f1, 0x923f82a4, 0xab1c5ed5,
    0xd807aa98, 0x12835b01, 0x243185be, 0x550c7dc3, 0x72be5d74, 0x80deb1fe, 0x9bdc06a7, 0xc19bf174,
    0xe49b69c1, 0xefbe4786, 0x0fc19dc6, 0x240ca1cc, 0x2de92c6f, 0x4a7484aa, 0x5cb0a9dc, 0x76f988da,
    0x983e5152, 0xa831c66d, 0xb00327c8, 0xbf597fc7, 0xc6e00bf3, 0xd5a79147, 0x06ca6351, 0x14292967,
    0x27b70a85, 0x2e1b2138, 0x4d2c6dfc, 0x53380d13, 0x650a7354, 0x766a0abb, 0x81c2c92e, 0x92722c85,
    0xa2bfe8a1, 0xa81a664b, 0xc24b8b70, 0xc76c51a3, 0xd192e819, 0xd6990624, 0xf40e3585, 0x106aa070,
    0x19a4c116, 0x1e376c08, 0x2748774c, 0x34b0bcb5, 0x391c0cb3, 0x4ed8aa4a, 0x5b9cca4f, 0x682e6ff3,
    0x748f82ee, 0x78a5636f, 0x84c87814, 0x8cc70208, 0x90befffa, 0xa4506ceb, 0xbef9a3f7, 0xc67178f2]

def initial : List Word :=
  [0x6a09e667, 0xbb67ae85, 0x3c6ef372, 0xa54ff53a, 0x510e527f, 0x9b05688c, 0x1f83d9ab, 0x5be0cd19]

def round : List Word → Word × Word → List Word
  | [a, b, c, d, e, f, g, h], (k, w) =>
    let t1 := add (add (add h (bigSigma1 e)) (add (ch e f g) k)) w
    let t2 := add (bigSigma0 a) (maj a b c)
    [add t1 t2, a, b, c, add d t1, e, f, g]
  | state, _ => state

/-- `n` more words of a message schedule, the last sixteen of which stand in a window. -/
def schedule : Nat → List Word → List Word
  | 0, _ => []
  | n + 1, window =>
    match window with
    | [] => []
    | w :: rest =>
      let next := add (add (smallSigma1 (window.getD 14 0)) (window.getD 9 0))
        (add (smallSigma0 (window.getD 1 0)) w)
      w :: schedule n (rest ++ [next])

def words : Bytes → List Word
  | a :: b :: c :: d :: rest => Bytes.ofBigEndian [a, b, c, d] :: words rest
  | _ => []

def compress (state block : List Word) : List Word :=
  List.zipWith add state ((constants.zip (schedule 64 block)).foldl round state)

def padded (message : Bytes) : Bytes :=
  message ++ [0x80] ++ List.replicate ((119 - message.length % 64) % 64) 0 ++
    Bytes.bigEndian 8 (8 * message.length)

def blocks : Nat → List Word → List Word → List Word
  | 0, state, _ => state
  | n + 1, state, ws => blocks n (compress state (ws.take 16)) (ws.drop 16)

def sha256 (message : Bytes) : Bytes :=
  let ws := words (padded message)
  (blocks (ws.length / 16) initial ws).flatMap (Bytes.bigEndian 4)

theorem length_round {state : List Word} (h : state.length = 8) (kw : Word × Word) :
    (round state kw).length = 8 := by
  fun_cases round state kw with
  | case1 => rfl
  | case2 => exact h

theorem length_foldl_round {state : List Word} (h : state.length = 8) (kws : List (Word × Word)) :
    (kws.foldl round state).length = 8 := by
  induction kws generalizing state with
  | nil => exact h
  | cons kw kws ih => exact ih (length_round h kw)

theorem length_compress {state : List Word} (h : state.length = 8) (block : List Word) :
    (compress state block).length = 8 := by
  rw [compress, List.length_zipWith, h, length_foldl_round h, Nat.min_self]

theorem length_blocks {state : List Word} (h : state.length = 8) (n : Nat) (ws : List Word) :
    (blocks n state ws).length = 8 := by
  induction n generalizing state ws with
  | zero => exact h
  | succ n ih => exact ih (length_compress h _) _

theorem length_sha256 (message : Bytes) : (sha256 message).length = 32 := by
  have hlen : (blocks ((words (padded message)).length / 16) initial
      (words (padded message))).length = 8 := length_blocks rfl _ _
  simp [sha256, List.length_flatMap, hlen]

end Sha256
