import DbService.Runs
import DbService.DbProxy
import DbService.WorkerOrder
import DbService.PreCacheRerun
import DbService.SessionTable
import DbService.Callbacks
import DbService.Delivery
import DbService.LostConnection
import DbService.DirtyMap
import DbService.WritebackFailures
import DbService.ResultRouting
import DbService.ReadCoherence
import DbService.CacheSize
import DbService.FailedWrites
import DbService.PartialUpdates
import DbService.PureReads
import DbService.OwnRows
import DbService.Expiry
import DbService.FlushEntryPoints
import DbService.RowRoundTrip
import DbService.ArgumentInjection
import DbService.CacheLimit
import DbService.CallTransactions
import DbService.ClientDestruction
import DbService.DueSessions
import DbService.Evictions
import DbService.CleanRecords
import DbService.FlushTypes
import DbService.CacheShares
import DbService.StartUp
import DbService.DataNames
import DbService.RowDecoders
import DbService.KeyLiterals
import DbService.VariantValues
import DbService.SimultaneousArguments
import DbService.Assertions
import DbService.RecordSizes
import DbService.Varint
import DbService.MyDbProxy
import DbService.CallbackOrder
import DbService.RequestLedger
import DbService.AnswerOrigins
import DbService.CommandBlocks
import DbService.CacheHomes
import DbService.SharedDatabase
import DbService.ClientView
import DbService.RequestProgress
