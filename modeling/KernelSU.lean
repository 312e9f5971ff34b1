import KernelSU.App.SulogLine
import KernelSU.Feature.AdbRoot
import KernelSU.Feature.AdbRootEnv
import KernelSU.Feature.FeatureHandlers
import KernelSU.Feature.SelinuxHideRestored
import KernelSU.Feature.Sucompat
import KernelSU.Hook.LsmHook
import KernelSU.Hook.LsmHookRestored
import KernelSU.Hook.LsmHookSearch
import KernelSU.Hook.SetuidHook
import KernelSU.Hook.SuServed
import KernelSU.Hook.SyscallBridge
import KernelSU.Hook.SyscallTable
import KernelSU.Hook.SyscallTransparent
import KernelSU.Hook.TpMarkerMarks
import KernelSU.Hook.World
import KernelSU.Infra.EventQueue
import KernelSU.Infra.EventQueueAccounting
import KernelSU.Infra.EventQueueReturns
import KernelSU.Infra.UserMemory
import KernelSU.Kpm.BufferRoom
import KernelSU.Kpm.MovedLoads
import KernelSU.Ksud.BootRestored
import KernelSU.Ksud.FeatureConfig
import KernelSU.Ksud.FeatureConfigFile
import KernelSU.Ksud.FeatureConfigKept
import KernelSU.Ksud.FeatureManaged
import KernelSU.Ksud.ModuleConfigStore
import KernelSU.Ksud.Modules
import KernelSU.Ksud.Sepolicy
import KernelSU.Ksud.SepolicyPatch
import KernelSU.Ksud.SepolicyPrint
import KernelSU.Ksud.SepolicyPrinted
import KernelSU.Ksud.SepolicyRoundTrip
import KernelSU.Ksud.SepolicyShape
import KernelSU.Ksud.SepolicyText
import KernelSU.Ksud.SepolicyWire
import KernelSU.Ksud.SulogDirectory
import KernelSU.Ksud.SulogFiles
import KernelSU.Ksud.SulogRetention
import KernelSU.Ksud.SulogRotation
import KernelSU.Ksuinit.Resolvers
import KernelSU.Ksuinit.Vermagic
import KernelSU.Ksuinit.VermagicReplaced
import KernelSU.Lib.Block
import KernelSU.Lib.ByteReader
import KernelSU.Lib.Bytes
import KernelSU.Lib.Decoding
import KernelSU.Lib.Errno
import KernelSU.Lib.Fallible
import KernelSU.Lib.FirstMatch
import KernelSU.Lib.GrowingList
import KernelSU.Lib.HashTable
import KernelSU.Lib.LastWriter
import KernelSU.Lib.MapOrder
import KernelSU.Lib.Memory
import KernelSU.Lib.Panicking
import KernelSU.Lib.Parsing
import KernelSU.Lib.PartialString
import KernelSU.Lib.Patched
import KernelSU.Lib.Printing
import KernelSU.Lib.Reading
import KernelSU.Lib.Runs
import KernelSU.Lib.SortedMap
import KernelSU.Lib.SwapRemove
import KernelSU.LkmImage.BootstrapLink
import KernelSU.LkmImage.BootstrapLinked
import KernelSU.LkmImage.BootstrapObject
import KernelSU.LkmImage.BootstrapParsed
import KernelSU.LkmImage.BootstrapRelocation
import KernelSU.LkmImage.BranchLink
import KernelSU.LkmImage.CapsuleApplied
import KernelSU.LkmImage.KallsymsAddresses
import KernelSU.LkmImage.KallsymsEncoded
import KernelSU.LkmImage.ModuleElf
import KernelSU.LkmImage.ModuleFixups
import KernelSU.LkmImage.SymbolOrder
import KernelSU.LkmImage.TokenTable
import KernelSU.LkmImage.TokenTableSearch
import KernelSU.LkmImageBtf.CandidateExact
import KernelSU.LkmImageBtf.KernelBtfFacts
import KernelSU.Manager.ApkSignWritten
import KernelSU.Manager.SearchCache
import KernelSU.Manager.SearchManager
import KernelSU.Manager.ThronePrune
import KernelSU.Policy.Allowlist
import KernelSU.Policy.AllowlistFile
import KernelSU.Policy.AllowlistInvariant
import KernelSU.Policy.AppProfile
import KernelSU.Policy.EscapeRoot
import KernelSU.Policy.FeatureRegistry
import KernelSU.Policy.ProfileHandles
import KernelSU.Policy.ProfileHandlesSafe
import KernelSU.Policy.RootGrant
import KernelSU.Runtime.InitRc
import KernelSU.Runtime.InitRcSplice
import KernelSU.Selinux.AddType
import KernelSU.Selinux.AvDecisions
import KernelSU.Selinux.AvFrame
import KernelSU.Selinux.AvRules
import KernelSU.Selinux.FilenameTrans
import KernelSU.Selinux.PolicyLen
import KernelSU.Selinux.Policydb
import KernelSU.Selinux.Rules
import KernelSU.Selinux.Sepolicy
import KernelSU.Selinux.SepolicyBatch
import KernelSU.Selinux.TypeCommands
import KernelSU.Selinux.XpermRange
import KernelSU.Selinux.Xperms
import KernelSU.Sulog.ArgvKept
import KernelSU.Sulog.Transport
import KernelSU.Supercall.BootEvents
import KernelSU.Supercall.Dispatch
import KernelSU.Supercall.DispatchCases
import KernelSU.Supercall.DriverRuns
import KernelSU.Supercall.DriverSettings
import KernelSU.Supercall.MountList
import KernelSU.Supercall.RootEntitled
import KernelSU.Supercall.Unprivileged
