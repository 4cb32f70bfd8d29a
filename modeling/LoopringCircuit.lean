import LoopringCircuit.Field
import LoopringCircuit.Protoboard
import LoopringCircuit.Merkle
import LoopringCircuit.Comparison
import LoopringCircuit.Gadgets
import LoopringCircuit.Update
import LoopringCircuit.Ring
import LoopringCircuit.Matching
import LoopringCircuit.Circuit
import LoopringCircuit.PublicData
import LoopringCircuit.History
import LoopringCircuit.Accounts
import LoopringCircuit.RingWitness
import LoopringCircuit.Trivial
import LoopringCircuit.Settlement
import LoopringCircuit.Batch
import LoopringCircuit.Generation
import LoopringCircuit.BatchWitness
