import RAMCloud.Machine
import RAMCloud.Double
import RAMCloud.HashTable
import RAMCloud.Benchmark.TestObject
import RAMCloud.Benchmark.Measure
import RAMCloud.Benchmark.Histogram
import RAMCloud.Benchmark.Run
