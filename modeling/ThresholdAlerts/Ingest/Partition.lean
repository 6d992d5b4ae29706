/-! The worker a metric key belongs to: a 64-bit multiplicative hash of the key's bytes, modulo the
number of workers. -/
namespace ThresholdAlerts.Partition

def mix (h w : UInt64) : UInt64 :=
  (((h <<< 5) ||| (h >>> 59)) ^^^ w) * 0x517cc1b727220a95

/-- The word with these bytes, the lowest first. -/
def word (bytes : List UInt8) : UInt64 :=
  bytes.foldr (fun b w => (w <<< 8) ||| b.toUInt64) 0

/-- The words of a run of bytes: eight bytes each, then four if as many are left, then single
bytes. -/
def words : List UInt8 → List UInt64
  | a :: b :: c :: d :: e :: f :: g :: h :: rest => word [a, b, c, d, e, f, g, h] :: words rest
  | a :: b :: c :: d :: rest => word [a, b, c, d] :: words rest
  | a :: rest => a.toUInt64 :: words rest
  | [] => []

def hash (bytes : List UInt8) : UInt64 :=
  (words bytes).foldl mix (mix 0 bytes.length.toUInt64)

def ofKey (workers : Nat) (key : String) : Nat :=
  (hash key.toUTF8.toList).toNat % workers

theorem ofKey_lt (workers : Nat) (key : String) (h : 0 < workers) : ofKey workers key < workers :=
  Nat.mod_lt _ h

end ThresholdAlerts.Partition
