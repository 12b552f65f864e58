import Bogbin.Library.Buffer
import Bogbin.Library.PaddedHash
import Bogbin.Library.Staging
import Bogbin.Library.BlockDevice
import Bogbin.Library.AlternateRoot
import Bogbin.Base
import Bogbin.Core.Sha256
import Bogbin.Core.Sha256Proof
import Bogbin.Core.Workspace
import Bogbin.Core.WorkspaceProof
import Bogbin.Core.Process
import Bogbin.Kernel.Disk
import Bogbin.Kernel.DiskProof
import Bogbin.Kernel.FileSystem
import Bogbin.Kernel.CommitProof
import Bogbin.Kernel.V37
import Bogbin.Kernel.V37Proof
import Bogbin.Kernel.V38
import Bogbin.Kernel.V38Table
import Bogbin.Kernel.V38Proof
import Bogbin.Kernel.V38Mutation
import Bogbin.Kernel.FirstImage
import Bogbin.Kernel.Recovery
import Bogbin.Kernel.Paging
import Bogbin.Kernel.PagingProof
import Bogbin.Kernel.App
import Bogbin.Library.StableSort
import Bogbin.Core.WorkspaceRun
import Bogbin.Core.WorkspaceSort
import Bogbin.Tools.WorkspaceVectors
import Bogbin.Tools.WorkspaceVectorsProof
import Bogbin.Kernel.V39
import Bogbin.Kernel.RootSelection
import Bogbin.Core.Genesis
import Bogbin.Kernel.GenesisBoot
import Bogbin.Library.ArrayQueue
import Bogbin.Kernel.Syscall
import Bogbin.Kernel.Ipc
import Bogbin.Kernel.WritableBogfs
import Bogbin.Kernel.HandleSyscall
import Bogbin.Kernel.RejectedSyscall
import Bogbin.Kernel.SyscallFrame
import Bogbin.Kernel.IpcLaw
import Bogbin.Kernel.IpcProof
import Bogbin.Kernel.WritableBogfsLaw
import Bogbin.Kernel.WritableBogfsProof
import Bogbin.Library.ZeroPadding
import Bogbin.Library.PathSearch
import Bogbin.Library.StateExcept
import Bogbin.Library.Framing
import Bogbin.Bogvm.Json
import Bogbin.Bogvm.Signing
import Bogbin.Bogvm.Genesis
import Bogbin.Bogvm.Replay
import Bogbin.Bogvm.Ledger
import Bogbin.Bogvm.LedgerVerify
import Bogbin.Bogvm.LedgerTamper
import Bogbin.Bogvm.Archive
import Bogbin.Bogvm.ArchiveTree
import Bogbin.Bogvm.ArchiveProof
import Bogbin.Bogvm.Store
import Bogbin.Bogvm.StoreVerify
import Bogbin.Bogvm.DictSorted
import Bogbin.Bogvm.StorePackage
import Bogbin.Bogvm.StoreInstall
import Bogbin.Bogvm.StoreIdentity
import Bogbin.Bogvm.StoreAtomic
import Bogbin.Bogvm.DirectoryHash
import Bogbin.Bogvm.Broker
import Bogbin.Bogvm.BrokerServe
import Bogbin.Bogvm.BrokerHandle
import Bogbin.Bogvm.BrokerAudit
import Bogbin.Bogvm.BrokerMediation
import Bogbin.Bogvm.BrokerProcess
import Bogbin.Bogvm.BrokerReplay
import Bogbin.Bogvm.BrokerRun
import Bogbin.Bogvm.BrokerReplayProof
import Bogbin.Bogvm.BrokerCertify
import Bogbin.Bogvm.Operations
import Bogbin.Library.Tokens
import Bogbin.Bogvm.Text
import Bogbin.Vm.Bases
import Bogbin.Vm.Machine
import Bogbin.Vm.Effect
import Bogbin.Vm.Run
import Bogbin.Vm.Decisions
import Bogbin.Vm.DataIntegrity
import Bogbin.Vm.Guards
import Bogbin.Vm.Assembler
import Bogbin.Vm.AssemblerErrors
import Bogbin.Vm.Receipted
import Bogbin.Bogvm.JsonReader
import Bogbin.Vm.Declared
import Bogbin.Vm.Loader
import Bogbin.Core.Executor
import Bogbin.Vm.NativeExecutor
import Bogbin.Vm.Activation
import Bogbin.Vm.Adjacency
import Bogbin.Library.Grouping
import Bogbin.Library.Ranking
import Bogbin.Bogvm.LedgerAppend
import Bogbin.Bogvm.Mesh
import Bogbin.Bogvm.MeshStore
import Bogbin.Bogvm.MeshRun
import Bogbin.Bogvm.MeshPolicy
import Bogbin.Bogvm.MeshResolve
import Bogbin.Kernel.V38Lifecycle
import Bogbin.Library.Leb128
import Bogbin.Container.Transforms
import Bogbin.Container.Validate
import Bogbin.Container.Bogpk
import Bogbin.Container.Valid
import Bogbin.Container.Decoder
import Bogbin.Container.Sound
import Bogbin.Container.Grammar
import Bogbin.Container.Reading
import Bogbin.Container.Conforming
import Bogbin.Container.Encoder
import Bogbin.Container.Tracks
import Bogbin.Library.BurrowsWheeler
import Bogbin.Container.Inversion
import Bogbin.Container.Optimizer
import Bogbin.Container.Builder
import Bogbin.Container.OptimizerExact
import Bogbin.Container.ScoredSize
import Bogbin.Library.Layout
import Bogbin.Tools.AppPacker
import Bogbin.Tools.AppPackerProof
import Bogbin.Kernel.BogfsMount
import Bogbin.Kernel.BogfsTable
import Bogbin.Tools.MakeBogfs
import Bogbin.Tools.MakeBogfsProof
import Bogbin.Core.Journal
import Bogbin.Kernel.JournalBoot
import Bogbin.Library.Occurrence
import Bogbin.Kernel.SerialLine
import Bogbin.Kernel.ReceiptSpoof
import Bogbin.Bogvm.Swarm
import Bogbin.Bogvm.SwarmBudget
import Bogbin.Bogvm.SwarmReplay
import Bogbin.Bogvm.BogBootLaw
import Bogbin.Kernel.AppCanonical
import Bogbin.Core.JournalChain
import Bogbin.Core.Rollback
import Bogbin.Core.Canonical
import Bogbin.Core.TableCommitment
import Bogbin.Bogvm.AppIndex
import Bogbin.Bogvm.RegistryLaw
import Bogbin.Bogvm.BrokerVerdict
import Bogbin.Bogvm.AppRunVerdict
import Bogbin.Bogvm.AppPolicy
import Bogbin.Core.AddressSpace
import Bogbin.Kernel.V38Path
import Bogbin.Kernel.MountedNames
import Bogbin.Bogvm.CompareLaw
import Bogbin.Bogvm.MemoryMap
import Bogbin.Core.ProcessTable
import Bogbin.Kernel.Machine
import Bogbin.Kernel.UserWrites
import Bogbin.Kernel.Launch
import Bogbin.Kernel.Effect
import Bogbin.Kernel.EffectProof
import Bogbin.Kernel.SchedulerLaw
import Bogbin.Kernel.MemoryLaw
import Bogbin.Kernel.CodeIntegrity
import Bogbin.Kernel.Progress
import Bogbin.Packer.Assembled
import Bogbin.Packer.Executed
import Bogbin.Packer.Programs
import Bogbin.Packer.Chunks
import Bogbin.Packer.RoundTrip
import Bogbin.Packer.Compiled
