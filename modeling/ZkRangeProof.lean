import ZkRangeProof.Library.Sha256
import ZkRangeProof.Library.Bytes
import ZkRangeProof.Library.Decimal
import ZkRangeProof.Library.ModularUnits
import ZkRangeProof.Library.Commitment
import ZkRangeProof.Library.ExceptSeq
import ZkRangeProof.Library.Loop
import ZkRangeProof.Library.ModularOrder
import ZkRangeProof.Java.BigInteger
import ZkRangeProof.Java.BigIntUtil
import ZkRangeProof.Java.Dto
import ZkRangeProof.Java.Verifier
import ZkRangeProof.Java.Prover
import ZkRangeProof.Java.Generator
import ZkRangeProof.Protocol.RangeProof
import ZkRangeProof.Java.Refinement
import ZkRangeProof.Go.MathBig
import ZkRangeProof.Go.ByteConversion
import ZkRangeProof.Go.Validator
import ZkRangeProof.Go.Parse
import ZkRangeProof.Go.Precompile
import ZkRangeProof.Properties.Completeness
import ZkRangeProof.Properties.Verifiers
import ZkRangeProof.Properties.Soundness
import ZkRangeProof.Properties.Setup
