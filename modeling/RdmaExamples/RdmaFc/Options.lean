import RdmaExamples.Library.MachineWords

/-!
# The options of the many-to-one read test

`options_t`, its defaults `g_options`, and `parse_opts`, from `rdma_fc.c`.

C's `unsigned` and `size_t` fields are natural numbers that carry their bound as a field, so a
value that does not fit the C type cannot be built.  `rdma_read_size` carries more: no option sets
it, so it is `1024 * 1024` in every record there is.

`parse_opts` stores what `atoi` and `atol` return without looking at it.  The conversions to
`unsigned`, `size_t` and `uint8_t` are modulo the width, so `-o -1` asks for `2 ^ 64 - 1`
outstanding reads.

An accepted command line (`Accepted`) is a list of options in the order in which they were given,
and the record that comes of it; nothing is assumed about the numbers.  White space before a number
is what `isspace` takes for it in the C locale.
-/

namespace RdmaFc

open MachineWords

/-- `enum transport_type`. -/
inductive TransportType
  | rc
  | dc
  deriving DecidableEq, Repr

/-- A C string, without its terminating NUL. -/
abbrev CString := List Char

/-- `options_t`. -/
structure Options where
  logLevel : Int := 1
  destAddress : CString := []
  portNum : ℕ := 20000
  connBacklog : ℕ := 1000
  numConnections : ℕ := 1
  connTimeoutMs : Int := 2000
  transport : TransportType := .rc
  rdmaReadSize : ℕ := 1024 * 1024
  numIterations : ℕ := 1000
  maxOutstandingReads : ℕ := 8
  maxReadSize : ℕ := 32768
  txQueueLen : ℕ := 128
  rxQueueLen : ℕ := 128
  maxSendSge : ℕ := 1
  maxRecvSge : ℕ := 1
  maxRdAtomic : ℕ := 8
  minRnrTimer : ℕ := 17
  xportTimeout : ℕ := 17
  rnrRetry : ℕ := 7
  xportRetryCnt : ℕ := 7
  gidIndex : ℕ := 3
  hopLimit : ℕ := 64
  trafficClass : ℕ := 0
  sl : ℕ := 0
  numConnections_lt : numConnections < 2 ^ 32 := by decide
  rdmaReadSize_eq : rdmaReadSize = 1024 * 1024 := by decide
  numIterations_lt : numIterations < 2 ^ 32 := by decide
  maxOutstandingReads_lt : maxOutstandingReads < 2 ^ 64 := by decide
  maxReadSize_lt : maxReadSize < 2 ^ 64 := by decide

/-- `g_options` before `parse_opts`. -/
def gOptions : Options := {}

lemma one_lt_word : 1 < 2 ^ 32 := by decide
lemma two_lt_word : 2 < 2 ^ 32 := by decide

lemma Options.rdmaReadSize_pos (o : Options) : 0 < o.rdmaReadSize := by
  rw [o.rdmaReadSize_eq]
  decide

/-! ## Numbers on the command line -/

/-- The value of the leading decimal digits. -/
def digits : ℕ → CString → ℕ
  | acc, [] => acc
  | acc, c :: cs => if c.isDigit then digits (10 * acc + (c.toNat - '0'.toNat)) cs else acc

/-- `isspace` in the C locale: the blank, and the codes 9 to 13, which are tab, newline, vertical
tab, form feed and carriage return. -/
def isspace (c : Char) : Bool := c.toNat == 32 || (9 ≤ c.toNat && c.toNat ≤ 13)

/-- `strtol` to the base 10: leading white space, an optional sign, digits, and saturation at the
ends of `long`. -/
def strtol (s : CString) : Int :=
  match s.dropWhile isspace with
  | '-' :: cs => max (-(digits 0 cs : Int)) (-2 ^ 63)
  | '+' :: cs => min (digits 0 cs : Int) (2 ^ 63 - 1)
  | cs => min (digits 0 cs : Int) (2 ^ 63 - 1)

/-- `atol`. -/
def atol (s : CString) : Int := strtol s

/-- `atoi`: the `long` cut down to a signed 32-bit value. -/
def atoi (s : CString) : Int := toInt32 (strtol s)

/-! ## `parse_opts` -/

/-- What one call of `getopt(argc, argv, "hp:n:vt:x:i:r:o:G:T:H:S:")` hands back. -/
inductive Opt
  | p (optarg : CString)
  | n (optarg : CString)
  | v
  | t (optarg : CString)
  | x (optarg : CString)
  | i (optarg : CString)
  | r (optarg : CString)
  | o (optarg : CString)
  | bigG (optarg : CString)
  | bigT (optarg : CString)
  | bigH (optarg : CString)
  | bigS (optarg : CString)
  | h
  | other

/-- How `parse_opts` ends: with options, with `-1`, or in `exit(0)`. -/
inductive Parsed
  | options (o : Options)
  | invalid
  | exit

/-- `!strcasecmp(optarg, name)`. -/
def sameIgnoringCase (optarg name : CString) : Bool :=
  optarg.map Char.toLower == name.map Char.toLower

/-- `transport_names`. -/
def transportName : TransportType → CString
  | .rc => ['r', 'c']
  | .dc => ['d', 'c']

/-- One pass of the `getopt` loop. -/
def parseOpt (g : Options) : Opt → Parsed
  | .p a => .options { g with portNum := toUnsigned 32 (atoi a) }
  | .n a => .options { g with
      numConnections := toUnsigned 32 (atoi a)
      numConnections_lt := toUnsigned_lt _ _ }
  | .v => .options { g with logLevel := g.logLevel + 1 }
  | .t a => .options { g with connTimeoutMs := atoi a }
  | .x a =>
      if sameIgnoringCase a (transportName .rc) then .options { g with transport := .rc }
      else if sameIgnoringCase a (transportName .dc) then .options { g with transport := .dc }
      else .invalid
  | .i a => .options { g with
      numIterations := toUnsigned 32 (atoi a)
      numIterations_lt := toUnsigned_lt _ _ }
  | .r a => .options { g with
      maxReadSize := toUnsigned 64 (atol a)
      maxReadSize_lt := toUnsigned_lt _ _ }
  | .o a => .options { g with
      maxOutstandingReads := toUnsigned 64 (atol a)
      maxOutstandingReads_lt := toUnsigned_lt _ _ }
  | .bigG a => .options { g with gidIndex := toUnsigned 8 (atoi a) }
  | .bigT a => .options { g with trafficClass := toUnsigned 8 (atoi a) }
  | .bigH a => .options { g with hopLimit := toUnsigned 8 (atoi a) }
  | .bigS a => .options { g with sl := toUnsigned 8 (atoi a) }
  | .h => .exit
  | .other => .invalid

/-- `parse_opts`, from the options `g` on; `dest` is what follows the options, if anything does. -/
def parseOpts (g : Options) (dest : Option CString) : List Opt → Parsed
  | [] =>
      match dest with
      | some address => .options { g with destAddress := address }
      | none => .options g
  | opt :: opts =>
      match parseOpt g opt with
      | .options g' => parseOpts g' dest opts
      | .invalid => .invalid
      | .exit => .exit

/-- `is_client`: `strlen(g_options.dest_address)`. -/
def Options.isClient (o : Options) : Bool := o.destAddress.length != 0

/-- The queue lengths `run_server` raises before it listens.  `num_connections * 2` is an
`unsigned` product. -/
def Options.raiseQueueLens (o : Options) : Options := { o with
  rxQueueLen := max o.rxQueueLen (o.numConnections * 2 % 2 ^ 32)
  txQueueLen := max o.txQueueLen o.numConnections }

/-- Options `parse_opts` can leave behind. -/
def Accepted (o : Options) : Prop :=
  ∃ dest opts, parseOpts gOptions dest opts = .options o

/-- Every number of outstanding reads that fits `size_t` is accepted: nothing checks it. -/
example :
    Accepted { gOptions with maxOutstandingReads := 9, maxOutstandingReads_lt := by decide } :=
  ⟨none, [.o ['9']], rfl⟩

end RdmaFc
